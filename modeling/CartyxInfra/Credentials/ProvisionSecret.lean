/-
`kubernetes.mjs provision-secret`: a Secret that exists gets the application's
credential and nothing else, and where there is none a whole one is made.

The commands it runs (kubectl, `secrets.mjs`) and the files it reads are
calls; a command can fail before or after it takes effect.
`provisionSecret_existing` is what a run can do to a Secret that exists.
-/
import CartyxInfra.Lib.Fallible
import CartyxInfra.Lib.Trim

namespace CartyxInfra.Credentials

open JString

/-- The content of a file or of an entry. -/
abbrev Bytes := List UInt8

/-- The entries of a Secret, or the files of the credential directory. -/
abbrev Entries := List (JString × Bytes)

/-- The value of a key. -/
def Entries.get (entries : Entries) (key : JString) : Option Bytes :=
  (entries.find? fun entry => entry.1 == key).map (·.2)

/-- The entries with a value put under a key, in the place of the one it has. -/
def Entries.put (key : JString) (value : Bytes) : Entries → Entries
  | [] => [(key, value)]
  | entry :: rest => if entry.1 == key then (key, value) :: rest else entry :: Entries.put key value rest

/-- The Secret `cartyx-data`; `data` by the bytes its Base64 stands for, none
where it has no `data`. -/
structure Secret where
  resourceVersion : JString
  data : Option Entries
  deriving DecidableEq

/-- `secret.data?.[key]`. -/
def Secret.get (secret : Secret) (key : JString) : Option Bytes := secret.data.bind (·.get key)

/-- A Base64 text is truthy when it stands for some bytes. -/
def truthy : Option Bytes → Bool
  | some value => !value.isEmpty
  | none => false

/-- The key of the application's password. -/
def appKey : JString := utf16 "gremlin-app-password"

/-- The key of the operator's. -/
def operatorKey : JString := utf16 "gremlin-password"

/-! ## The program -/

/-- `kubectl`, `secrets.mjs` and the files. -/
inductive Command
  | getNamespace
  /-- `get secret cartyx-data --ignore-not-found -o name`. -/
  | getSecretName
  | getSecret
  /-- A JSON patch: a test of the resourceVersion, and the application's key added. -/
  | patchSecret (resourceVersion : JString) (value : Bytes)
  /-- `create secret generic cartyx-data`, with a `--from-file` for each. -/
  | createSecret (files : List JString)
  | secretsMjs
  | readFileSync (file : JString)

/-- What a command prints, or a file holds. -/
abbrev Command.Answer : Command → Type
  | .getSecretName => Bool
  | .getSecret => Secret
  | .readFileSync _ => Bytes
  | _ => Unit

/-- A call; a command that fails has no answer. -/
inductive Call
  | run (command : Command)
  | existsSync (file : JString)

/-- What a call answers. -/
abbrev Call.Ret : Call → Type
  | .run command => Option command.Answer
  | .existsSync _ => Bool

/-- What is thrown. -/
inductive Failure
  /-- `execFileSync` or `readFileSync` throws. -/
  | command (command : Command)
  | error (message : JString)

instance : Throwable Failure := ⟨.error⟩

/-- A script without variables. -/
abbrev Js (α : Type) := Program Call Call.Ret Failure Unit α

/-- `execFileSync` and `readFileSync`, which throw where there is no answer. -/
def run (command : Command) : Js command.Answer := do
  let answer ← Program.make (Call.run command)
  match answer with
    | some a => pure a
    | none => throw (.command command)

/-- What JavaScript's `trim` removes: white space and line terminators. -/
def jsBlank (c : UInt16) : Bool :=
  (9 ≤ c && c ≤ 13) || (0x2000 ≤ c && c ≤ 0x200A) ||
    [0x20, 0xA0, 0x1680, 0x2028, 0x2029, 0x202F, 0x205F, 0x3000, 0xFEFF].contains c

variable (bufferText : Bytes → JString) (environment : JString)

/-- The Secret exists. `bufferText` is `value.toString('utf8')`. -/
def addApplicationKey (secret : Secret) : Js Unit := do
  let restored ← Program.make (Call.existsSync (utf16 "tls.p12"))
  throwIf (!restored) (utf16 "Existing Secret needs gremlin-app-password; restore .local/data/" ++
    environment ++ utf16 " first")
  run .secretsMjs
  let value ← run (.readFileSync appKey)
  throwIf ((trim jsBlank (bufferText value)).length < 32) (utf16 "Invalid gremlin-app-password")
  throwIf (truthy (secret.get operatorKey) && secret.get operatorKey == some value)
    (utf16 "gremlin-app-password must differ from the operator credential")
  run (.patchSecret secret.resourceVersion value)

/-- The files the Secret is created from. -/
def FILES : List JString :=
  ["tls.p12", "tls.crt", "tls-password", "gremlin-password", "gremlin-app-password",
    "cassandra-admin-password", "cassandra-graph-password", "cassandra-state-password"].map utf16

/-- The loop over the files. -/
def checkFiles : List JString → Js Unit
  | [] => pure ()
  | file :: rest => do
    let present ← Program.make (Call.existsSync file)
    throwIf (!present) (utf16 "Missing or empty credential file: " ++ file)
    let value ← run (.readFileSync file)
    throwIf value.isEmpty (utf16 "Missing or empty credential file: " ++ file)
    checkFiles rest

/-- There is no Secret yet. -/
def createSecret : Js Unit := do
  run .secretsMjs
  checkFiles FILES
  run (.createSecret FILES)

/-- The mode `provision-secret`. -/
def provisionSecret : Js Unit := do
  run .getNamespace
  let existing ← run .getSecretName
  if existing then do
    let secret ← run .getSecret
    if truthy (secret.get appKey) then pure () else addApplicationKey bufferText environment secret
  else createSecret

/-! ## The cluster and the host -/

/-- The Secret of the cluster, and the credentials of the host. -/
structure World where
  secret : Option Secret
  /-- `.local/data/<environment>`. -/
  files : JString → Option Bytes

/-- What becomes of a command besides what it does. -/
inductive Fate
  | answered
  | failed
  /-- It takes effect, and its answer is lost. -/
  | lost

/-- How commands go on the host. -/
structure Host where
  /-- Whether `secrets.mjs` exits with 0, and the files it leaves. -/
  secretsMjs : (JString → Option Bytes) → Bool × (JString → Option Bytes)
  /-- The resourceVersion of a Secret that is written with such entries. -/
  nextVersion : Option Secret → Entries → JString
  fate : Command → World → Fate

variable (host : Host)

/-- The Secret a patch leaves. -/
def Host.patched (secret : Secret) (version : JString) (value : Bytes) : Option Secret :=
  if secret.resourceVersion == version then
    secret.data.map fun entries =>
      let entries := entries.put appKey value
      ⟨host.nextVersion (some secret) entries, some entries⟩
  else none

/-- What a command does, and its answer. -/
def Host.perform : (command : Command) → World → Option command.Answer × World
  | .getNamespace, w => (some (), w)
  | .getSecretName, w => (some w.secret.isSome, w)
  | .getSecret, w => (w.secret, w)
  | .patchSecret version value, w =>
    match w.secret.bind fun secret => host.patched secret version value with
    | some secret => (some (), { w with secret := some secret })
    | none => (none, w)
  | .createSecret files, w =>
    match w.secret, files.mapM fun file => (w.files file).map fun value => (file, value) with
    | none, some entries => (some (), { w with secret := some ⟨host.nextVersion none entries, some entries⟩ })
    | _, _ => (none, w)
  | .secretsMjs, w =>
    let (succeeds, files) := host.secretsMjs w.files
    (if succeeds then some () else none, { w with files })
  | .readFileSync file, w => (w.files file, w)

/-- What a call does, and its answer, by its fate. -/
def Host.handle : (c : Call) → World → Option (c.Ret × World)
  | .run command, w =>
    match host.fate command w with
    | .answered => some (host.perform command w)
    | .failed => some (none, w)
    | .lost => some (none, (host.perform command w).2)
  | .existsSync file, w => some ((w.files file).isSome, w)

/-! ## What a run does to a Secret -/

/-- It writes no Secret. -/
def Command.reads : Command → Bool
  | .patchSecret _ _ | .createSecret _ => false
  | _ => true

variable {bufferText environment host} {w w₁ w' : World} {secret : Secret}

theorem handle_reads {command : Command} {answer : Option command.Answer} (hr : command.reads = true)
    (h : host.handle (.run command) w = some (answer, w₁)) : w₁.secret = w.secret := by
  have hperform : (host.perform command w).2.secret = w.secret := by cases command <;> first | rfl | cases hr
  simp only [Host.handle] at h
  split at h
  · rw [Option.some.injEq] at h
    rw [← hperform, h]
  · cases h
    rfl
  · cases h
    exact hperform

/-- A command that has an answer has done what it does. -/
theorem handle_some {command : Command} {a : command.Answer}
    (h : host.handle (.run command) w = some (some a, w₁)) : host.perform command w = (some a, w₁) := by
  simp only [Host.handle] at h
  split at h
  · exact Option.some.inj h
  · cases h
  · cases h

theorem exec_run_cases {α : Type} {command : Command} {f : command.Answer → Js α}
    {out : Except Failure α × Unit}
    (h : Program.exec host.handle (run command >>= f) () w = some (out, w')) :
    (∃ a w₁, host.handle (.run command) w = some (some a, w₁) ∧
      Program.exec host.handle (f a) () w₁ = some (out, w')) ∨
    host.handle (.run command) w = some (none, w') := by
  rcases Program.exec_bind_cases h with ⟨a, _, w₁, hrun, h⟩ | ⟨e, _, -, hrun⟩
  · obtain ⟨answer, w₂, hanswer, hrun⟩ := Program.exec_call_cases hrun
    cases answer with
    | some a' =>
      cases hrun
      exact .inl ⟨a, w₁, hanswer, h⟩
    | none => cases hrun
  · obtain ⟨answer, w₂, hanswer, hrun⟩ := Program.exec_call_cases hrun
    cases answer with
    | some a' => cases hrun
    | none =>
      cases hrun
      exact .inr hanswer

/-- The run of the last command. -/
theorem exec_run {command : Command} {out : Except Failure command.Answer × Unit}
    (h : Program.exec host.handle (run command) () w = some (out, w')) :
    ∃ answer, host.handle (.run command) w = some (answer, w') := by
  obtain ⟨answer, w₁, hanswer, h⟩ := Program.exec_call_cases h
  cases answer with
  | some a =>
    cases h
    exact ⟨some a, hanswer⟩
  | none =>
    cases h
    exact ⟨none, hanswer⟩

/-- A patch that changes the Secret is of the version it names. -/
theorem handle_patch {version : JString} {value : Bytes} {answer : Option Unit} (hs : w.secret = some secret)
    (h : host.handle (.run (.patchSecret version value)) w = some (answer, w')) :
    w'.secret = some secret ∨ ∃ patched, host.patched secret version value = some patched ∧
      w'.secret = some patched := by
  have hperform : (host.perform (.patchSecret version value) w).2.secret = some secret ∨
      ∃ patched, host.patched secret version value = some patched ∧
        (host.perform (.patchSecret version value) w).2.secret = some patched := by
    simp only [Host.perform, hs, Option.bind_some]
    cases hpatched : host.patched secret version value with
    | none => exact .inl hs
    | some patched => exact .inr ⟨patched, rfl, rfl⟩
  simp only [Host.handle] at h
  split at h
  · rw [Option.some.inj h] at hperform
    exact hperform
  · cases h
    exact .inl hs
  · cases h
    exact hperform

/-- What is true when the application's key has been added to a Secret. -/
structure Added (bufferText : Bytes → JString) (host : Host) (files : JString → Option Bytes)
    (secret secret' : Secret) (value : Bytes) : Prop where
  file : (host.secretsMjs files).2 appKey = some value
  absent : truthy (secret.get appKey) = false
  long : 32 ≤ (trim jsBlank (bufferText value)).length
  distinct : truthy (secret.get operatorKey) = true → secret.get operatorKey ≠ some value
  patched : host.patched secret secret.resourceVersion value = some secret'

theorem handle_existsSync {file : JString} {b : Bool}
    (h : host.handle (.existsSync file) w = some (b, w₁)) : w₁ = w := by
  cases h
  rfl

theorem addApplicationKey_cases {out : Except Failure Unit × Unit} (hs : w.secret = some secret)
    (habsent : truthy (secret.get appKey) = false)
    (h : Program.exec host.handle (addApplicationKey bufferText environment secret) () w = some (out, w')) :
    w'.secret = some secret ∨
      ∃ secret' value, w'.secret = some secret' ∧ Added bufferText host w.files secret secret' value := by
  obtain ⟨restored, w₁, hrestored, h⟩ := Program.exec_call_cases h
  obtain rfl := handle_existsSync hrestored
  rcases Program.exec_throwIf_cases (w := w₁) h with ⟨-, h⟩ | rfl
  swap
  · exact .inl hs
  rcases exec_run_cases h with ⟨⟨⟩, w₂, hmade, h⟩ | hmade
  swap
  · exact .inl ((handle_reads rfl hmade).trans hs)
  have hs₂ := (handle_reads rfl hmade).trans hs
  have hfiles : w₂.files = (host.secretsMjs w₁.files).2 := by
    have hperform := congrArg Prod.snd (handle_some hmade)
    simp only [Host.perform] at hperform
    rw [← hperform]
  rcases exec_run_cases h with ⟨value, w₃, hread, h⟩ | hread
  swap
  · exact .inl ((handle_reads rfl hread).trans hs₂)
  have hread := handle_some hread
  simp only [Host.perform, Prod.mk.injEq] at hread
  obtain ⟨hvalue, rfl⟩ := hread
  rcases Program.exec_throwIf_cases h with ⟨hlong, h⟩ | rfl
  swap
  · exact .inl hs₂
  rcases Program.exec_throwIf_cases h with ⟨hdistinct, h⟩ | rfl
  swap
  · exact .inl hs₂
  obtain ⟨answer, hpatch⟩ := exec_run h
  rcases handle_patch hs₂ hpatch with hsame | ⟨secret', hpatched, hs'⟩
  · exact .inl hsame
  · refine .inr ⟨secret', value, hs',
      ⟨hfiles ▸ hvalue, habsent, by simpa using hlong, fun ht he => ?_, hpatched⟩⟩
    rw [he] at ht hdistinct
    simp [ht] at hdistinct

/-- **A Secret that exists** is left alone by a run, or gets the application's
credential, checked. -/
theorem provisionSecret_existing {out : Except Failure Unit × Unit} (hs : w.secret = some secret)
    (h : Program.exec host.handle (provisionSecret bufferText environment) () w = some (out, w')) :
    w'.secret = some secret ∨
      ∃ secret' value, w'.secret = some secret' ∧ Added bufferText host w.files secret secret' value := by
  rcases exec_run_cases h with ⟨⟨⟩, w₁, hnamespace, h⟩ | hnamespace
  swap
  · exact .inl ((handle_reads rfl hnamespace).trans hs)
  obtain ⟨-, rfl⟩ := Prod.mk.inj (handle_some hnamespace)
  rcases exec_run_cases h with ⟨existing, w₂, hname, h⟩ | hname
  swap
  · exact .inl ((handle_reads rfl hname).trans hs)
  obtain ⟨hexisting, rfl⟩ := Prod.mk.inj (handle_some hname)
  obtain rfl : true = existing := by simpa [hs] using hexisting
  rcases exec_run_cases h with ⟨found, w₃, hsecret, h⟩ | hsecret
  swap
  · exact .inl ((handle_reads rfl hsecret).trans hs)
  obtain ⟨hfound, rfl⟩ := Prod.mk.inj (handle_some hsecret)
  obtain rfl : secret = found := Option.some.inj (hs.symm.trans hfound)
  cases habsent : truthy (secret.get appKey) with
  | true =>
    simp only [habsent, if_true] at h
    cases h
    exact .inl hs
  | false =>
    simp only [habsent, Bool.false_eq_true, if_false] at h
    exact addApplicationKey_cases hs habsent h

end CartyxInfra.Credentials
