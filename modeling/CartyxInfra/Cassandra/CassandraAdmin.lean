/-
`cassandra-admin.py`: what it has `cqlsh` execute to provision Cassandra, to
tell whether Cassandra is ready, and to try what the roles may do.

`cqlsh -f` logs in and executes the statements of its file in order. It goes on
after one that fails, and then exits with another code than 0. After 30 seconds
it is killed, wherever it is. The private files the passwords go through are
left out.
-/
import CartyxInfra.Lib.Script

namespace CartyxInfra.Cassandra

/-- A Python string, as its code points. -/
abbrev Text := List Char

/-- A literal of the script. -/
def text (s : String) : Text := s.toList

/-- `part in whole`. -/
def contains (part : Text) : Text → Bool
  | [] => part.isEmpty
  | c :: rest => part.isPrefixOf (c :: rest) || contains part rest

/-! ## CQL -/

/-- The roles the script speaks of: the default login, the administrator and the two scoped ones. -/
inductive RoleName
  | cassandra
  | cartyxAdmin
  | cartyxGraph
  | cartyxState
  deriving DecidableEq

/-- What is granted on a keyspace. -/
inductive Permission
  | all
  | select
  | modify
  deriving DecidableEq

/-- The statements the script sends; the table is `infrastructure_probe` where none is named. -/
inductive Statement
  /-- `CREATE KEYSPACE IF NOT EXISTS keyspace`, replicated in a datacenter. -/
  | createKeyspace (keyspace dc : Text)
  /-- `CREATE ROLE IF NOT EXISTS role`, with `LOGIN = true`. -/
  | createRole (role : RoleName) (password : Text) (superuser : Bool)
  | grant (permission : Permission) (keyspace : Text) (role : RoleName)
  /-- `CREATE TABLE IF NOT EXISTS keyspace.infrastructure_probe (id text PRIMARY KEY, value text)`. -/
  | createTable (keyspace : Text)
  /-- `ALTER ROLE role WITH LOGIN = login`. -/
  | alterRole (role : RoleName) (login : Bool)
  | insert (keyspace id value : Text)
  /-- `SELECT release_version FROM system.local`. -/
  | selectRelease
  /-- `SELECT value FROM keyspace.infrastructure_probe WHERE id = id`. -/
  | selectValue (keyspace id : Text)
  /-- `SELECT * FROM keyspace.edgestore LIMIT 1`. -/
  | selectEdges (keyspace : Text)
  /-- `SELECT * FROM keyspace.infrastructure_probe`. -/
  | selectProbe (keyspace : Text)
  deriving DecidableEq

/-! ## Calls -/

/-- What the script has done outside of it. -/
inductive Call
  /-- `cqlsh` starts and logs in. -/
  | connect (user : RoleName) (password : Text)
  | execute (user : RoleName) (statement : Statement)
  | sleep (seconds : Nat)

/-- How far `cqlsh` gets, with what it writes to its error output. -/
inductive Answer
  | ok (stdout stderr : Text)
  | failed (stderr : Text)
  /-- The 30 seconds are over. -/
  | expired

/-- What a call answers. -/
@[reducible] def Call.Ret : Call → Type
  | .connect .. | .execute .. => Answer
  | .sleep _ => Unit

/-- The exceptions that leave the script. -/
inductive Raised
  | timeoutExpired
  | valueError (message : Text)
  | assertionError (message : Text)
  /-- `sys.exit`, with a status and what is written to the error output. -/
  | systemExit (status : Nat) (message : Text)
  deriving DecidableEq

/-- A script that raises. -/
abbrev Py (α : Type) := Program Call Call.Ret Raised Unit α

/-- `time.sleep(seconds)`. -/
def sleep (seconds : Nat) : Py Unit := Program.make (Call.sleep seconds)

/-- `sys.exit(message)`. -/
def die (message : Text) : Py Unit := throw (.systemExit 1 message)

/-! ## Settings -/

/-- The roles whose passwords are in the secrets' directory. -/
inductive SecretName
  | admin
  | graph
  | state
  deriving DecidableEq

/-- The file of a password. -/
def SecretName.file : SecretName → Text
  | .admin => text "cassandra-admin-password"
  | .graph => text "cassandra-graph-password"
  | .state => text "cassandra-state-password"

/-- The keyspaces and the datacenter of the environment, and the texts of the secrets' files, stripped. -/
structure Setup where
  graph : Text
  state : Text
  dc : Text
  secrets : SecretName → Text

/-- `re.fullmatch('[a-z][a-z0-9_]*', value)`. -/
def isIdentifier : Text → Bool
  | [] => false
  | c :: rest => ('a' ≤ c && c ≤ 'z') &&
    rest.all fun c => ('a' ≤ c && c ≤ 'z') || ('0' ≤ c && c ≤ '9') || c == '_'

/-- `re.fullmatch('[a-f0-9]{64}', value)`. -/
def isGenerated (value : Text) : Bool :=
  value.length == 64 && value.all fun c => ('a' ≤ c && c ≤ 'f') || ('0' ≤ c && c ≤ '9')

/-- The loop over the keyspaces and the datacenter. -/
def checkIdentifiers (setup : Setup) : Py Unit :=
  if [setup.graph, setup.state, setup.dc].all isIdentifier then pure ()
  else throw (.valueError (text "Invalid keyspace/datacenter identifier"))

/-- `secret(name)`: the file's text, which must be a generated one. -/
def secret (setup : Setup) (name : SecretName) : Py Text :=
  if isGenerated (setup.secrets name) then pure (setup.secrets name)
  else throw (.valueError (text "Expected generated 256-bit secret: " ++ name.file))

/-! ## `query` -/

/-- What is left of a process that has ended. -/
structure Completed where
  returncode : Nat
  stdout : Text
  stderr : Text

/-- The statements of the file, from one on. -/
def executeAll (user : RoleName) : List Statement → Completed → Py Completed
  | [], result => pure result
  | statement :: rest, result => do
    let answer ← Program.make (Call.execute user statement)
    match answer with
      | .ok stdout stderr =>
        executeAll user rest
          { result with stdout := result.stdout ++ stdout, stderr := result.stderr ++ stderr }
      -- A failed statement does not stop those after it.
      | .failed stderr =>
        executeAll user rest { result with returncode := 2, stderr := result.stderr ++ stderr }
      | .expired => throw .timeoutExpired

/-- `subprocess.run(['cqlsh', .., '-f', script], timeout=30)`. -/
def cqlsh (user : RoleName) (password : Text) (script : List Statement) : Py Completed := do
  let answer ← Program.make (Call.connect user password)
  match answer with
    | .ok _ stderr => executeAll user script ⟨0, [], stderr⟩
    | .failed stderr => pure ⟨1, [], stderr⟩
    | .expired => throw .timeoutExpired

/-- Whether `query` takes what has ended for a success. -/
def Completed.succeeds (result : Completed) (expected : Option Text) : Bool :=
  (result.returncode == 0 &&
    !([text "Error", text "Exception", text "InvalidRequest"].any
      fun marker => contains marker result.stderr)) &&
  expected.all fun part => contains part result.stdout

/-- The password asked for, by default the administrator's. -/
def orAdmin (setup : Setup) : Option Text → Py Text
  | none => secret setup .admin
  | some password => pure password

/-- `query(sql, user, password, expected)`: whether `cqlsh` succeeds, and prints what is expected.
-/
def query (setup : Setup) (sql : List Statement) (user : RoleName) (password expected : Option Text) :
    Py Bool := do
  let password ← orAdmin setup password
  let result ← cqlsh user password sql
  pure (result.succeeds expected)

/-- `except subprocess.TimeoutExpired: pass`. -/
def orTimeout {α : Type} (m : Py α) (a : α) : Py α :=
  tryCatch m fun
    | .timeoutExpired => pure a
    | raised => throw raised

/-! ## Bootstrap -/

/-- How a turn of the first loop ends. -/
inductive Turn
  | break
  | continue
  | pass

/-- Logs in as `cartyx_admin`, or creates the role with the default login. -/
def login (setup : Setup) : Py Turn := do
  let known ← query setup [.selectRelease] .cartyxAdmin none none
  if known then pure .break
  else do
    let admin ← secret setup .admin
    let created ← query setup [.createRole .cartyxAdmin admin true] .cassandra (some (text "cassandra")) none
    -- It waits for the role's propagation, and verifies the new login.
    if created then pure .continue else pure .pass

/-- The first loop, for as many turns. -/
def authenticate (setup : Setup) : Nat → Py Unit
  | 0 => die (text "Cassandra bootstrap could not authenticate within the startup budget")
  | attempts + 1 => do
    let turn ← orTimeout (login setup) .pass
    match turn with
      | .break => pure ()
      | .continue => authenticate setup attempts
      | .pass => do
        sleep 5
        authenticate setup attempts

/-- The provisioning script, the marker of its end last. -/
def statements (setup : Setup) (graph state : Text) : List Statement :=
  [.createKeyspace setup.graph setup.dc,
   .createKeyspace setup.state setup.dc,
   .createRole .cartyxGraph graph false,
   .createRole .cartyxState state false,
   .grant .all setup.graph .cartyxGraph,
   .grant .select setup.state .cartyxState,
   .grant .modify setup.state .cartyxState,
   .createTable setup.state,
   .alterRole .cassandra false,
   .insert setup.state (text "bootstrap-v1") (text "ready")]

/-- The second loop, for as many turns. -/
def provision (setup : Setup) (script : List Statement) : Nat → Py Unit
  | 0 => die (text "Cassandra keyspace/role provisioning failed after bounded retries; inspect server logs")
  | attempts + 1 => do
    let done ← orTimeout (query setup script .cartyxAdmin none none) false
    if done then pure ()
    else do
      sleep 5
      provision setup script attempts

/-- The mode `bootstrap`. -/
def bootstrap (setup : Setup) : Py Unit := do
  authenticate setup 60
  let graph ← secret setup .graph
  let state ← secret setup .state
  provision setup (statements setup graph state) 12

/-! ## Security -/

/-- `assert holds, message`. -/
def assert (holds : Bool) (message : Text) : Py Unit :=
  if holds then pure () else throw (.assertionError message)

/-- Each scoped role reads its own keyspace only, and the default login is closed. -/
def security (setup : Setup) : Py Unit := do
  let there ← query setup [.selectEdges setup.graph] .cartyxAdmin none none
  assert there (text "Graph table must exist for denial test")
  let password ← secret setup .state
  let reads ← query setup [.selectProbe setup.state] .cartyxState (some password) none
  assert reads []
  let password ← secret setup .state
  let reads ← query setup [.selectEdges setup.graph] .cartyxState (some password) none
  assert (!reads) []
  let password ← secret setup .graph
  let reads ← query setup [.selectProbe setup.state] .cartyxGraph (some password) none
  assert (!reads) []
  let opens ← query setup [.selectRelease] .cassandra (some (text "cassandra")) none
  assert (!opens) []
  throw (.systemExit 0 [])

/-! ## The script -/

/-- `sys.argv[1]`. -/
inductive Mode
  | ready
  | security
  | bootstrap
  | other (mode : Text)
  deriving DecidableEq

/-- The mode `ready`: whether the marker can be read. -/
def ready (setup : Setup) : Py Unit := do
  let found ← query setup [.selectValue setup.state (text "bootstrap-v1")] .cartyxAdmin none
    (some (text "ready"))
  throw (.systemExit (if found then 0 else 1) [])

/-- The script. -/
def main (setup : Setup) (mode : Mode) : Py Unit := do
  checkIdentifiers setup
  match mode with
    | .ready => ready setup
    | .security => security setup
    | .bootstrap => bootstrap setup
    | .other _ => throw (.valueError (text "Usage: cassandra-admin.py [bootstrap|ready]"))

/-- How a process ends, and in which mode it ran. -/
structure Exit where
  mode : Mode
  status : Nat
  deriving DecidableEq

/-- The status of the process, by how the script has ended. -/
def exitStatus : Except Raised Unit → Nat
  | .ok () => 0
  | .error (.systemExit status _) => status
  | .error _ => 1

/-- A process of the script. -/
def program (setup : Setup) (_ : Nat) (mode : Mode) : Script Call Call.Ret Exit := do
  let out ← (main setup mode).script ()
  pure ⟨mode, exitStatus out.1⟩

end CartyxInfra.Cassandra
