/-
`secrets.mjs`: the credentials of an environment, made once and kept.

A run that finds `tls.p12` keeps what there is, and adds the application's
credential where that is missing. A run that finds the directory without it
fails. Any other run makes the directory, six random credentials, a
certificate, and last the archive and its mode.

Its file operations are calls, one after another; `writeFileSync` is two of
them, and each `openssl` is one.
-/
import CartyxInfra.Lib.JString
import CartyxInfra.Lib.Script
import CartyxInfra.Credentials.ProvisionSecret

namespace CartyxInfra.Credentials

open JString

namespace Secrets

/-! ## The disk -/

/-- A file with its mode. -/
structure File where
  content : Bytes
  mode : Nat
  deriving DecidableEq

/-- `.local/data/<environment>`. -/
structure Directory where
  mode : Nat
  files : JString → Option File

/-- What is of concern of the disk. -/
structure Disk where
  /-- The mode of `.local/data`. -/
  parent : Option Nat
  directory : Option Directory

/-- A file of the directory. -/
def Disk.file (disk : Disk) (name : JString) : Option File := disk.directory.bind (·.files name)

/-- A file of the directory is this now. -/
def Disk.put (disk : Disk) (name : JString) (file : File) : Disk :=
  { disk with directory := disk.directory.map fun directory =>
      { directory with files := Function.update directory.files name (some file) } }

/-- The mode of what is created, under the default umask. -/
def masked (mode : Nat) : Nat := mode &&& (0o777 ^^^ 0o022)

/-- A program writes a file: one that is there keeps its mode. -/
def Disk.output (disk : Disk) (name : JString) (mode : Nat) (content : Bytes) : Disk :=
  disk.put name ⟨content, ((disk.file name).map File.mode).getD mode⟩

/-! ## The calls -/

/-- What the script does to the disk. -/
inductive Call
  /-- `mkdirSync(parent, { recursive: true, mode: 0o700 })`. -/
  | mkdirParent
  | chmodParent (mode : Nat)
  | existsSync (file : JString)
  | existsDirectory
  | mkdirSync (mode : Nat)
  /-- `writeFileSync` opens the file: with the flag `wx`, one that is not there. -/
  | openSync (file : JString) (wx : Bool) (mode : Nat)
  /-- and writes what it is to hold. -/
  | writeSync (file : JString) (content : Bytes)
  | opensslReq
  | opensslPkcs12
  | chmodSync (file : JString) (mode : Nat)

/-- Whether there is such a file, or the call succeeds. -/
abbrev Call.Ret : Call → Type := fun _ => Bool

/-- The private key. -/
def tlsKey : JString := utf16 "tls.key"

/-- The certificate. -/
def tlsCrt : JString := utf16 "tls.crt"

/-- The archive of both, which is what says that a set is complete. -/
def tlsP12 : JString := utf16 "tls.p12"

/-- The archive's password. -/
def tlsPassword : JString := utf16 "tls-password"

/-- The configuration of `openssl req`. -/
def opensslCnf : JString := utf16 "openssl.cnf"

/-- What `openssl` puts out, from what it reads and its own randomness. -/
structure Openssl where
  /-- The private key and the certificate. -/
  req : (config : Bytes) → (seed : Nat) → Bytes × Bytes
  pkcs12 : (key crt password : Bytes) → (seed : Nat) → Bytes
  req_ne : ∀ config seed, (req config seed).2 ≠ []
  pkcs12_ne : ∀ key crt password seed, pkcs12 key crt password seed ≠ []

variable (openssl : Openssl) (seed : Nat)

/-- What a call does to the disk, and whether it succeeds. -/
def handle : (c : Call) → Disk → Bool × Disk
  | .mkdirParent, disk => (true, { disk with parent := some (disk.parent.getD (masked 0o700)) })
  | .chmodParent mode, disk => (disk.parent.isSome, { disk with parent := disk.parent.map fun _ => mode })
  | .existsSync file, disk => ((disk.file file).isSome, disk)
  | .existsDirectory, disk => (disk.directory.isSome, disk)
  | .mkdirSync mode, disk =>
    if disk.parent.isSome && disk.directory.isNone then
      (true, { disk with directory := some ⟨masked mode, fun _ => none⟩ })
    else (false, disk)
  | .openSync name wx mode, disk =>
    if disk.directory.isNone || wx && (disk.file name).isSome then (false, disk)
    else (true, disk.output name (masked mode) [])
  | .writeSync name content, disk =>
    match disk.file name with
    | some file => (true, disk.put name { file with content })
    | none => (false, disk)
  | .opensslReq, disk =>
    match disk.file opensslCnf with
    | some config =>
      let (key, crt) := openssl.req config.content seed
      (true, (disk.output tlsKey 0o600 key).output tlsCrt (masked 0o666) crt)
    | none => (false, disk)
  | .opensslPkcs12, disk =>
    match disk.file tlsKey, disk.file tlsCrt, disk.file tlsPassword with
    | some key, some crt, some password =>
      (true, disk.output tlsP12 0o600 (openssl.pkcs12 key.content crt.content password.content seed))
    | _, _, _ => (false, disk)
  | .chmodSync name mode, disk =>
    match disk.file name with
    | some file => (true, disk.put name { file with mode })
    | none => (false, disk)

/-! ## The program -/

/-- What is thrown. -/
inductive Failure
  /-- A file operation or `openssl` fails, and throws. -/
  | system (call : Call)
  | error (message : JString)

/-- A script without variables. -/
abbrev Js (α : Type) := Program Call Call.Ret Failure Unit α

/-- A call that only tells. -/
def ask (c : Call) : Js Bool := Program.make c

/-- A call that throws where it fails. -/
def run (c : Call) : Js Unit := do
  let succeeds ← ask c
  if succeeds then pure () else throw (.system c)

/-- `randomBytes(32)`. -/
abbrev RandomBytes := { bytes : Bytes // bytes.length = 32 }

/-- The digit of half a byte. -/
def hexDigit (n : UInt8) : UInt8 := if n < 10 then n + 48 else n + 87

/-- `bytes.toString('hex') + '\n'`. -/
def hexLine (bytes : Bytes) : Bytes :=
  (bytes.flatMap fun byte => [hexDigit (byte / 16), hexDigit (byte % 16)]) ++ [10]

/-- The environments there are credentials for. -/
def ENVIRONMENTS : List JString := ["local", "dev", "prod", "restore"].map utf16

/-- The keys that are written, in their order. -/
def KEYS : List JString :=
  ["cassandra-admin-password", "cassandra-graph-password", "cassandra-state-password",
    "gremlin-password"].map utf16 ++
    [appKey, tlsPassword]

variable (random : JString → RandomBytes) (cwd environment : JString)

/-- `hosts`: the names in the certificate. -/
def hosts : List JString :=
  ["localhost", "cassandra", "janusgraph", "cartyx-data-cassandra", "cartyx-data-janusgraph"].map utf16 ++
    [environment, utf16 "cartyx-local"].flatMap fun namespace' =>
      ["cartyx-data-cassandra", "cartyx-data-janusgraph"].flatMap fun service =>
        [utf16 service ++ utf16 "." ++ namespace' ++ utf16 ".svc",
          utf16 service ++ utf16 "." ++ namespace' ++ utf16 ".svc.cluster.local"]

/-- `openssl.cnf`, of ASCII. -/
def config : Bytes :=
  (utf16 "[req]\ndistinguished_name=dn\nx509_extensions=extensions\nprompt=no\n" ++
    utf16 "[dn]\nCN=cartyx-data-" ++ environment ++
    utf16 "\n[extensions]\nbasicConstraints=critical,CA:TRUE\n" ++
    utf16 "keyUsage=critical,digitalSignature,keyEncipherment,keyCertSign\nsubjectAltName=" ++
    (utf16 ",").intercalate ((hosts environment).map fun host => utf16 "DNS:" ++ host) ++
    utf16 ",IP:127.0.0.1\n").map UInt16.toUInt8

/-- `writeFileSync`: it opens the file, and then writes to it. -/
def writeFileSync (file : JString) (content : Bytes) (wx : Bool) (mode : Nat) : Js Unit := do
  run (.openSync file wx mode)
  run (.writeSync file content)

/-- A key's file, with 32 random bytes in hexadecimal. -/
def writeKey (key : JString) : Js Unit := writeFileSync key (hexLine (random key)) true 0o644

/-- The loop over the keys. -/
def writeKeys : List JString → Js Unit
  | [] => pure ()
  | key :: keys => do
    writeKey random key
    writeKeys keys

/-- There is an archive. -/
def reuse : Js Unit := do
  let present ← ask (.existsSync appKey)
  if present then pure () else writeKey random appKey

/-- There is none. -/
def create : Js Unit := do
  let found ← ask .existsDirectory
  if found then
    throw (.error (utf16 "Incomplete credentials at " ++ cwd ++ utf16 "/.local/data/" ++ environment ++
      utf16 "; inspect before retrying"))
  else do
    run (.mkdirSync 0o755)
    writeKeys random KEYS
    writeFileSync opensslCnf (config environment) false 0o666
    run .opensslReq
    run .opensslPkcs12
    run (.chmodSync tlsP12 0o644)

/-- The script. -/
def secretsMjs : Js Unit :=
  if ENVIRONMENTS.contains environment then do
    run .mkdirParent
    run (.chmodParent 0o700)
    let found ← ask (.existsSync tlsP12)
    if found then reuse random else create random cwd environment
  else throw (.error (utf16 "Environment must be local, dev, prod, or restore"))

/-! ## What a call writes -/

section Files

variable {openssl seed} {disk : Disk} {name name' : JString} {file : File} {mode : Nat} {content : Bytes}

theorem Disk.directory_of_file (h : disk.file name = some file) : disk.directory.isSome = true := by
  obtain ⟨directory, hdirectory, -⟩ := Option.bind_eq_some_iff.1 h
  simp [hdirectory]

theorem Disk.file_put (h : disk.directory.isSome = true) : (disk.put name file).file name = some file := by
  obtain ⟨directory, hdirectory⟩ := Option.isSome_iff_exists.1 h
  simp [put, Disk.file, hdirectory]

theorem Disk.file_put_of_ne (hne : name' ≠ name) : (disk.put name file).file name' = disk.file name' := by
  cases hdirectory : disk.directory with
  | none => simp [put, Disk.file, hdirectory]
  | some directory => simp [put, Disk.file, hdirectory, hne]

theorem Disk.file_output_of_ne (hne : name' ≠ name) :
    (disk.output name mode content).file name' = disk.file name' :=
  file_put_of_ne hne

/-- A file that is not there is put out with the mode it is given. -/
theorem Disk.file_output (hdirectory : disk.directory.isSome = true) (habsent : disk.file name = none) :
    (disk.output name mode content).file name = some ⟨content, mode⟩ := by
  rw [output, habsent, file_put hdirectory]
  rfl

/-- The files that a call may write. -/
def Call.targets : Call → List JString
  | .openSync name _ _ | .writeSync name _ | .chmodSync name _ => [name]
  | .opensslReq => [tlsKey, tlsCrt]
  | .opensslPkcs12 => [tlsP12]
  | _ => []

/-- A call leaves the other files. -/
theorem handle_file {c : Call} (h : name ∉ c.targets) :
    (handle openssl seed c disk).2.file name = disk.file name := by
  cases c with
  | mkdirParent | chmodParent | existsSync | existsDirectory => rfl
  | mkdirSync =>
    simp only [handle]
    split
    · next hnone =>
      rw [Bool.and_eq_true, Option.isNone_iff_eq_none] at hnone
      simp [Disk.file, hnone.2]
    · rfl
  | openSync target wx mode =>
    simp only [handle]
    split
    · rfl
    · exact Disk.file_output_of_ne (by simpa [Call.targets] using h)
  | writeSync target content | chmodSync target mode =>
    simp only [handle]
    split
    · exact Disk.file_put_of_ne (by simpa [Call.targets] using h)
    · rfl
  | opensslReq =>
    simp only [Call.targets, List.mem_cons, List.not_mem_nil, or_false, not_or] at h
    simp only [handle]
    split
    · rw [Disk.file_output_of_ne h.2, Disk.file_output_of_ne h.1]
    · rfl
  | opensslPkcs12 =>
    simp only [handle]
    split
    · exact Disk.file_output_of_ne (by simpa [Call.targets] using h)
    · rfl

/-- With `wx`, a file that is opened was not there. -/
theorem handle_openSync (h : (handle openssl seed (.openSync name true mode) disk).1 = true) :
    disk.file name = none ∧
      (handle openssl seed (.openSync name true mode) disk).2.file name = some ⟨[], masked mode⟩ := by
  simp only [handle, Bool.true_and] at h ⊢
  split at h
  · cases h
  · next hopen =>
    have hboth : disk.directory.isSome = true ∧ disk.file name = none := by
      cases hdirectory : disk.directory <;> cases hfile : disk.file name <;>
        simp [hdirectory, hfile] at hopen ⊢
    rw [if_neg hopen]
    exact ⟨hboth.2, Disk.file_output hboth.1 hboth.2⟩

theorem handle_writeSync (openssl : Openssl) (seed : Nat) (content : Bytes) (h : disk.file name = some file) :
    (handle openssl seed (.writeSync name content) disk).1 = true ∧
      (handle openssl seed (.writeSync name content) disk).2.file name = some { file with content } := by
  simp only [handle, h]
  exact ⟨trivial, Disk.file_put (Disk.directory_of_file h)⟩

theorem handle_chmodSync (openssl : Openssl) (seed mode : Nat) (h : disk.file name = some file) :
    (handle openssl seed (.chmodSync name mode) disk).1 = true ∧
      (handle openssl seed (.chmodSync name mode) disk).2.file name = some { file with mode } := by
  simp only [handle, h]
  exact ⟨trivial, Disk.file_put (Disk.directory_of_file h)⟩

theorem handle_opensslReq (h : (handle openssl seed .opensslReq disk).1 = true)
    (habsent : disk.file tlsCrt = none) :
    ∃ config, (handle openssl seed .opensslReq disk).2.file tlsCrt =
      some ⟨(openssl.req config seed).2, masked 0o666⟩ := by
  simp only [handle] at h ⊢
  split at h
  · next config hconfig =>
    have hdirectory := Disk.directory_of_file hconfig
    refine ⟨config.content, Disk.file_output ?_ ?_⟩
    · simpa [Disk.output, Disk.put] using hdirectory
    · rw [Disk.file_output_of_ne (by decide), habsent]
  · cases h

theorem handle_opensslPkcs12 (h : (handle openssl seed .opensslPkcs12 disk).1 = true)
    (habsent : disk.file tlsP12 = none) :
    ∃ key crt password, (handle openssl seed .opensslPkcs12 disk).2.file tlsP12 =
      some ⟨openssl.pkcs12 key crt password seed, 0o600⟩ := by
  simp only [handle] at h ⊢
  split at h
  · next key crt password hkey _ _ =>
    exact ⟨key.content, crt.content, password.content, Disk.file_output (Disk.directory_of_file hkey) habsent⟩
  · cases h

end Files

end Secrets

end CartyxInfra.Credentials
