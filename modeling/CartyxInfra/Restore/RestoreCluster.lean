/-
`restore-cluster.mjs`, up to the creation of the namespace it restores into:
what it reads from the bucket and from the chart's checkout, and what it
refuses.

A file of the checkout is given by what the scripts and the chart take from
it. What the script leaves to the file formats (`JSON.parse`, `tar -xOf`, the
checksum) are its `Tools`.
-/
import CartyxInfra.Backup.BackupCluster

namespace CartyxInfra.Restore

open JString Backup

/-! ## The checkout -/

/-- Named texts: a directory, or the data of a ConfigMap. -/
structure Files where
  entries : List (JString × JString)
  nodup : (entries.map (·.1)).Nodup

/-- The text of a name. -/
def Files.get (files : Files) (name : JString) : Option JString :=
  (files.entries.find? fun entry => entry.1 == name).map (·.2)

/-- What the chart's templates take from the values. -/
structure Values where
  cassandraImage : JString
  janusgraphImage : JString
  graphKeyspace : JString
  stateKeyspace : JString

/-- The same of a file that need not set it. -/
structure Overlay where
  cassandraImage : Option JString := none
  janusgraphImage : Option JString := none
  graphKeyspace : Option JString := none
  stateKeyspace : Option JString := none

/-- A checkout of `deploy/charts/cartyx-data`. -/
structure Checkout where
  /-- `values.yaml`. -/
  defaults : Values
  /-- `values-<environment>.yaml`. -/
  overlay : Namespace → Overlay
  /-- `files/`. -/
  files : Files

/-- The values a release of the chart has, `valuesFiles` being the two in order. -/
def Checkout.values (checkout : Checkout) (environment : Namespace) : Values where
  cassandraImage := (checkout.overlay environment).cassandraImage.getD checkout.defaults.cassandraImage
  janusgraphImage := (checkout.overlay environment).janusgraphImage.getD checkout.defaults.janusgraphImage
  graphKeyspace := (checkout.overlay environment).graphKeyspace.getD checkout.defaults.graphKeyspace
  stateKeyspace := (checkout.overlay environment).stateKeyspace.getD checkout.defaults.stateKeyspace

/-! ## The archive -/

/-- A manifest as it is parsed, the completion's or the archive's: a field is
none where the object has none. -/
structure Parsed where
  format : Option Nat
  environment : Option JString
  id : Option JString
  key : Option JString
  sha256 : Option JString
  cassandraImage : Option JString
  janusgraphImage : Option JString
  graphKeyspace : Option JString
  stateKeyspace : Option JString

/-- `/^[a-f0-9]{64}$/`. -/
def isDigest (text : JString) : Bool :=
  text.length == 64 && text.all fun u => (97 ≤ u && u ≤ 102) || (48 ≤ u && u ≤ 57)

/-- What `sha256`, `JSON.parse` and `tar` make of bytes. -/
structure Tools where
  sha256 : Bytes → JString
  digest : ∀ bytes, isDigest (sha256 bytes) = true
  /-- `JSON.parse` of a manifest, and of `config.json`. -/
  parseManifest : Bytes → Option Parsed
  parseConfig : Bytes → Option Files
  /-- `tar -xOf archive name`; none where it fails or prints more than 8 MiB. -/
  member : Bytes → JString → Option Bytes

/-- What a restore is given: its arguments, the bucket and the checkout. -/
structure Input where
  environment : Namespace
  manifestKey : JString
  object : JString → Option Bytes
  checkout : Checkout

/-! ## The guard -/

/-- `if (!allowed) throw new Error(message)`. -/
def check (allowed : Bool) (message : String) : Except JString Unit :=
  if allowed then .ok () else .error (utf16 message)

/-- What there is, or the exception for what there is not. -/
def orThrow {α : Type} (found : Option α) (message : String) : Except JString α :=
  match found with
  | some a => .ok a
  | none => .error (utf16 message)

/-- `/^[a-zA-Z0-9_.-]+$/`. -/
def plainName (name : JString) : Bool :=
  !name.isEmpty && name.all fun u => (97 ≤ u && u ≤ 122) || (65 ≤ u && u ≤ 90) || (48 ≤ u && u ≤ 57) ||
    u == 95 || u == 46 || u == 45

/-- The loop over the entries of the archived configuration. -/
def checkConfig (files : Files) : List (JString × JString) → Except JString Unit
  | [] => .ok ()
  | (name, content) :: rest => do
    check (plainName name) "Check out the matching chart configuration before restoring"
    let text ← orThrow (files.get name) "ENOENT: no such file or directory"
    check (text == content) "Check out the matching chart configuration before restoring"
    checkConfig files rest

/-- The credentials a restore needs. -/
def keys : List JString :=
  ["tls.p12", "tls.crt", "tls-password", "gremlin-password", "gremlin-app-password",
    "cassandra-admin-password", "cassandra-graph-password", "cassandra-state-password"].map utf16

/-- The loop that takes the credentials out of the archive. -/
def extractCredentials (tools : Tools) (archive : Bytes) : List JString → Except JString Unit
  | [] => .ok ()
  | key :: rest => do
    let _ ← orThrow (tools.member archive (utf16 "credentials/" ++ key)) "Command failed: tar"
    extractCredentials tools archive rest

/-- `cartyx-data/${environment}/cluster/`. -/
def manifestPrefix (environment : Namespace) : JString :=
  utf16 "cartyx-data/" ++ environment.text ++ utf16 "/cluster/"

/-- Everything before `kubectl create namespace`. -/
def restoreGuard (tools : Tools) (input : Input) : Except JString Unit := do
  check ((manifestPrefix input.environment).isPrefixOf input.manifestKey &&
      endsWith input.manifestKey (utf16 ".tar.gz.json"))
    "Manifest must be in the selected environment cluster-backup prefix"
  let text ← orThrow (input.object input.manifestKey) "NoSuchKey"
  check (text.length ≤ 1024 * 1024) "Manifest exceeds 1 MiB"
  let manifest ← orThrow (tools.parseManifest text) "SyntaxError"
  check (manifest.format == some 2 && manifest.environment == some input.environment.text &&
      manifest.key == some (archiveKey input.manifestKey) && manifest.sha256.any isDigest)
    "Invalid completion manifest"
  check (manifest.cassandraImage == some input.checkout.defaults.cassandraImage &&
      manifest.janusgraphImage == some input.checkout.defaults.janusgraphImage)
    "Check out the matching database image/chart revision before restoring"
  let archive ← orThrow (manifest.key.bind input.object) "NoSuchKey"
  check (some (tools.sha256 archive) == manifest.sha256) "Downloaded archive checksum mismatch"
  let innerText ← orThrow (tools.member archive (utf16 "manifest.json")) "Command failed: tar"
  let inner ← orThrow (tools.parseManifest innerText) "SyntaxError"
  check (inner.id == manifest.id && inner.environment == some input.environment.text &&
      inner.cassandraImage == manifest.cassandraImage && inner.janusgraphImage == manifest.janusgraphImage)
    "Archive metadata does not match its completion manifest"
  let configText ← orThrow (tools.member archive (utf16 "config.json")) "Command failed: tar"
  let config ← orThrow (tools.parseConfig configText) "SyntaxError"
  checkConfig input.checkout.files config.entries
  extractCredentials tools archive keys

/-! ## What an archive records -/

section

variable (tools : Tools) (input : Input)

/-- The completion manifest. -/
def Input.manifest : Option Parsed := (input.object input.manifestKey).bind tools.parseManifest

/-- The archive it names. -/
def Input.archive : Option Bytes := (input.manifest tools).bind fun manifest => manifest.key.bind input.object

/-- The archive's own manifest. -/
def Input.inner : Option Parsed :=
  ((input.archive tools).bind fun archive => tools.member archive (utf16 "manifest.json")).bind
    tools.parseManifest

/-- The archived configuration. -/
def Input.config : Option Files :=
  ((input.archive tools).bind fun archive => tools.member archive (utf16 "config.json")).bind
    tools.parseConfig

end

end CartyxInfra.Restore
