/-
`restore-cluster.mjs` from its arguments to its result, given by the calls it
makes.

A command, a request or a file operation can fail, with a text, and then
throws. The checks are those of `restoreGuard`, made here on what the calls
return.
-/
import CartyxInfra.Credentials.ProvisionSecret
import CartyxInfra.Lib.Finally
import CartyxInfra.Restore.RestoreCluster

namespace CartyxInfra.Restore

open JString Backup

/-- The bucket's connection. -/
structure Connection where
  endpoint : JString
  bucket : JString
  accessKeyId : JString
  secretAccessKey : JString
  deriving DecidableEq

/-- A Secret's data. -/
abbrev Data := List (JString × Bytes)

/-- What a run is given. -/
structure Arguments where
  /-- `argv[2]`; none where it is neither `dev` nor `prod`, or `DATA_KUBECONFIG` is not set. -/
  environment : Option Namespace
  /-- `argv[3]`. -/
  manifestKey : Option JString
  /-- `process.env`. -/
  settings : JString → Option JString
  checkout : Checkout
  /-- The workstation. -/
  host : Nat

/-- `result.json`, but for its times. -/
structure Result where
  environment : Namespace
  space : JString
  volume : Option JString
  manifestKey : JString
  sha256 : Option JString
  deriving DecidableEq

/-- The checks a started release is put to. -/
inductive Verification
  | smoke
  | security
  | cqlSecurity
  deriving DecidableEq

/-- The calls; `space` is the namespace restored into, whose name the local directory has too. -/
inductive Call
  /-- `Date.now()`. -/
  | now
  /-- `mkdirSync(directory)`. -/
  | makeDirectory (space : JString)
  | getSecret (space name : JString)
  /-- `GetObjectCommand`, and its body. -/
  | getObject (connection : Connection) (key : JString)
  /-- The same into the file `backup.tar.gz`, opened with `wx`. -/
  | download (connection : Connection) (key space : JString)
  /-- The checksum of `backup.tar.gz`. -/
  | hash (space : JString)
  /-- `tar -xOf`. -/
  | member (space name : JString)
  /-- `mkdirSync(credentials)`. -/
  | makeCredentials (space : JString)
  /-- `writeFileSync` with `wx`. -/
  | writeCredential (space key : JString) (content : Bytes)
  | createNamespace (space : JString)
  /-- The Secret `cartyx-data`, from the files of the keys. -/
  | createSecret (space : JString) (keys : List JString)
  /-- The claim `cartyx-data-cassandra`. -/
  | createClaim (space : JString)
  /-- The Job `restore-loader`. -/
  | createJob (space : JString) (image : Option JString)
  /-- `wait --for=condition=Ready` for the loader's pod. -/
  | waitReady (space : JString)
  /-- `backup.tar.gz` into `tar -xzf - … data` in the loader. -/
  | extract (space : JString)
  /-- `delete job restore-loader --wait=true`, which waits for the Job, not for its pod. -/
  | deleteJob (space : JString)
  /-- `helm upgrade --install cartyx-data`. -/
  | helm (space : JString) (environment : Namespace)
  /-- `spawn('kubectl', … 'port-forward' …)`. -/
  | portForward (space : JString)
  /-- The port that it prints. -/
  | awaitPort
  /-- One of the three checks, through that port. -/
  | verify (verification : Verification) (space port : JString)
  /-- `get pvc`, for `spec.volumeName`. -/
  | getClaim (space : JString)
  | writeResult (result : Result)
  /-- `forward.kill('SIGTERM')`. -/
  | killForward

/-- What a call answers. -/
@[reducible] def Call.Ret : Call → Type
  | .now => Int
  | .getSecret .. => Reply Data
  | .getObject .. | .member .. => Reply Bytes
  | .hash _ | .awaitPort => Reply JString
  | .getClaim _ => Reply (Option JString)
  | .makeDirectory _ | .download .. | .makeCredentials _ | .writeCredential .. | .createNamespace _
  | .createSecret .. | .createClaim _ | .createJob .. | .waitReady _ | .extract _ | .deleteJob _
  | .helm .. | .verify .. | .writeResult _ => Reply Unit
  | .portForward _ | .killForward => Unit

/-- A script whose variable says whether `forward` is set. -/
abbrev Js (α : Type) := Program Call Call.Ret JString Bool α

-- Each call, which throws where it has failed.

def now : Js Int := Program.make Call.now
def makeDirectory (space : JString) : Js Unit := Program.make (.makeDirectory space) >>= await
def getSecret (space name : JString) : Js Data := Program.make (.getSecret space name) >>= await
def getObject (connection : Connection) (key : JString) : Js Bytes :=
  Program.make (.getObject connection key) >>= await
def download (connection : Connection) (key space : JString) : Js Unit :=
  Program.make (.download connection key space) >>= await
def hash (space : JString) : Js JString := Program.make (.hash space) >>= await
def member (space name : JString) : Js Bytes := Program.make (.member space name) >>= await
def makeCredentials (space : JString) : Js Unit := Program.make (.makeCredentials space) >>= await
def writeCredential (space key : JString) (content : Bytes) : Js Unit :=
  Program.make (.writeCredential space key content) >>= await
def createNamespace (space : JString) : Js Unit := Program.make (.createNamespace space) >>= await
def createSecret (space : JString) (keys : List JString) : Js Unit :=
  Program.make (.createSecret space keys) >>= await
def createClaim (space : JString) : Js Unit := Program.make (.createClaim space) >>= await
def createJob (space : JString) (image : Option JString) : Js Unit :=
  Program.make (.createJob space image) >>= await
def waitReady (space : JString) : Js Unit := Program.make (.waitReady space) >>= await
def extract (space : JString) : Js Unit := Program.make (.extract space) >>= await
def deleteJob (space : JString) : Js Unit := Program.make (.deleteJob space) >>= await
def helm (space : JString) (environment : Namespace) : Js Unit :=
  Program.make (.helm space environment) >>= await
def portForward (space : JString) : Js Unit := do
  let _ ← Program.make (Call.portForward space)
  modify fun _ => true
def awaitPort : Js JString := Program.make .awaitPort >>= await
def verify (verification : Verification) (space port : JString) : Js Unit :=
  Program.make (.verify verification space port) >>= await
def getClaim (space : JString) : Js (Option JString) := Program.make (.getClaim space) >>= await
def writeResult (result : Result) : Js Unit := Program.make (.writeResult result) >>= await

/-- `forward?.kill('SIGTERM')`. -/
def killForward : Js Unit := do
  let forward ← get
  if forward then Program.make Call.killForward else pure ()

/-- `cartyx-restore-${environment}-${Date.now()}`. -/
def spaceName (environment : Namespace) (time : Int) : JString :=
  utf16 "cartyx-restore-" ++ environment.text ++ utf16 "-" ++ utf16 (toString time)

/-! ## The connection -/

/-- `externalKeys`: the settings that replace the Secret. -/
def externalKeys : List JString :=
  ["DATA_BACKUP_ENDPOINT", "DATA_BACKUP_BUCKET", "DATA_BACKUP_ACCESS_KEY_ID",
    "DATA_BACKUP_SECRET_ACCESS_KEY"].map utf16

/-- A setting that is there and not empty. -/
def Arguments.set (args : Arguments) (key : JString) : Bool := (args.settings key).any fun text => !text.isEmpty

/-- A setting's text. -/
def Arguments.setting (args : Arguments) (key : String) : JString := (args.settings (utf16 key)).getD []

/-- The Secret that has the bucket's connection. -/
def backupSecret : JString := utf16 "cartyx-data-backup"

/-- A run. -/
abbrev Pid := Nat

/-- What restores are done with: the archive's formats, `toString('utf8')` and the volume's files. -/
structure Setup (Tree : Type) where
  args : Pid → Arguments
  tools : Tools
  bufferText : Bytes → JString
  /-- What `tar -xz --strip-components=1 data` makes of an archive. -/
  unpack : Bytes → Option Tree
  empty : Tree

section

variable {Tree : Type} (setup : Setup Tree) (args : Arguments)

/-- `value`: a key's value, decoded and trimmed. -/
def secretValue (secret : Data) (key : String) : Js JString :=
  match secret.find? fun entry => entry.1 == utf16 key with
  | some entry => pure (trim Credentials.jsBlank (setup.bufferText entry.2))
  | none => fail (utf16 "The first argument must be of type string")

/-- The bucket's connection: from the four settings, or from the Secret in the environment's
namespace. -/
def connect (environment : Namespace) : Js Connection := do
  if externalKeys.any args.set then
    if externalKeys.all args.set then
      pure ⟨args.setting "DATA_BACKUP_ENDPOINT", args.setting "DATA_BACKUP_BUCKET",
        args.setting "DATA_BACKUP_ACCESS_KEY_ID", args.setting "DATA_BACKUP_SECRET_ACCESS_KEY"⟩
    else fail (utf16 "Provide all four DATA_BACKUP_* settings")
  else do
    let secret ← getSecret environment.text backupSecret
    let account ← secretValue setup secret "R2_ACCOUNT_ID"
    let bucket ← secretValue setup secret "R2_BUCKET"
    let accessKeyId ← secretValue setup secret "AWS_ACCESS_KEY_ID"
    let secretAccessKey ← secretValue setup secret "AWS_SECRET_ACCESS_KEY"
    pure ⟨utf16 "https://" ++ account ++ utf16 ".r2.cloudflarestorage.com", bucket, accessKeyId,
      secretAccessKey⟩

/-! ## From the manifest to the result -/

/-- The manifest's part of the guard. -/
def checkManifest (environment : Namespace) (manifestKey : JString) (text : Bytes) : Reply Parsed := do
  check (text.length ≤ 1024 * 1024) "Manifest exceeds 1 MiB"
  let manifest ← orThrow (setup.tools.parseManifest text) "SyntaxError"
  check (manifest.format == some 2 && manifest.environment == some environment.text &&
      manifest.key == some (archiveKey manifestKey) && manifest.sha256.any isDigest)
    "Invalid completion manifest"
  check (manifest.cassandraImage == some args.checkout.defaults.cassandraImage &&
      manifest.janusgraphImage == some args.checkout.defaults.janusgraphImage)
    "Check out the matching database image/chart revision before restoring"
  pure manifest

/-- The archive's own manifest against the completion's. -/
def checkInner (environment : Namespace) (manifest : Parsed) (text : Bytes) : Reply Unit := do
  let inner ← orThrow (setup.tools.parseManifest text) "SyntaxError"
  check (inner.id == manifest.id && inner.environment == some environment.text &&
      inner.cassandraImage == manifest.cassandraImage && inner.janusgraphImage == manifest.janusgraphImage)
    "Archive metadata does not match its completion manifest"

/-- The archived configuration against the checkout. -/
def checkArchivedConfig (text : Bytes) : Reply Unit := do
  let config ← orThrow (setup.tools.parseConfig text) "SyntaxError"
  checkConfig args.checkout.files config.entries

/-- The loop that takes the credentials out of the archive. -/
def writeCredentials (space : JString) : List JString → Js Unit
  | [] => pure ()
  | key :: rest => do
    let content ← member space (utf16 "credentials/" ++ key)
    writeCredential space key content
    writeCredentials space rest

/-- The download, checked and taken apart. -/
def prepare (environment : Namespace) (manifest : Parsed) (connection : Connection) (space : JString) :
    Js Unit := do
  let key ← await (orThrow manifest.key "No value provided for input HTTP label: Key.")
  download connection key space
  let digest ← hash space
  await (check (some digest == manifest.sha256) "Downloaded archive checksum mismatch")
  let innerText ← member space (utf16 "manifest.json")
  await (checkInner setup environment manifest innerText)
  let configText ← member space (utf16 "config.json")
  await (checkArchivedConfig setup args configText)
  makeCredentials space
  writeCredentials space keys

/-- From the namespace to the volume that holds the archive's data. -/
def load (manifest : Parsed) (space : JString) : Js Unit := do
  createNamespace space
  createSecret space keys
  createClaim space
  createJob space manifest.cassandraImage
  waitReady space
  extract space
  deleteJob space

/-- The started release is put to the checks. -/
def examine (environment : Namespace) (manifestKey : JString) (manifest : Parsed) (space : JString) :
    Js Result := do
  let port ← awaitPort
  verify .smoke space port
  verify .security space port
  verify .cqlSecurity space port
  let volume ← getClaim space
  writeResult ⟨environment, space, volume, manifestKey, manifest.sha256⟩
  pure ⟨environment, space, volume, manifestKey, manifest.sha256⟩

/-- The `try` block. -/
def restore (environment : Namespace) (manifestKey : JString) (connection : Connection) (space : JString) :
    Js Result := do
  let text ← getObject connection manifestKey
  let manifest ← await (checkManifest setup args environment manifestKey text)
  prepare setup args environment manifest connection space
  load manifest space
  helm space environment
  portForward space
  examine environment manifestKey manifest space

/-- Whether `manifestKey` is of the environment's cluster backups. -/
def ofCluster (environment : Namespace) (manifestKey : JString) : Bool :=
  (manifestPrefix environment).isPrefixOf manifestKey && endsWith manifestKey (utf16 ".tar.gz.json")

/-- The script. -/
def main : Js Result :=
  match args.environment, args.manifestKey with
  | none, _ => fail (utf16 "Set DATA_KUBECONFIG; usage: restore-cluster.mjs dev|prod <R2 manifest key>")
  | some _, none => fail (utf16 "Manifest must be in the selected environment cluster-backup prefix")
  | some environment, some manifestKey => do
    await (check (ofCluster environment manifestKey)
      "Manifest must be in the selected environment cluster-backup prefix")
    let time ← now
    makeDirectory (spaceName environment time)
    let connection ← connect setup args environment
    await (check ((utf16 "https://").isPrefixOf connection.endpoint) "Backup endpoint requires HTTPS")
    Program.tryFinally (restore setup args environment manifestKey connection (spaceName environment time))
      killForward

end

end CartyxInfra.Restore
