/-
The Cassandra the script's processes share: what each statement does there, and
how it can fail.

A statement that fails, or whose `cqlsh` is killed, is applied or not, but
never later. Nothing but the script writes roles, grants and the probe's table.
-/
import CartyxInfra.Cassandra.CassandraAdmin

namespace CartyxInfra.Cassandra

/-- A role of the cluster. -/
structure Role where
  password : Text
  login : Bool
  superuser : Bool
  deriving DecidableEq

/-- The cluster, with what the processes' statements have come to. -/
structure World where
  role : RoleName → Option Role
  /-- The datacenter a keyspace is replicated in. -/
  keyspace : Text → Option Text
  grants : List (Permission × Text × RoleName)
  /-- The keyspaces with a table `infrastructure_probe`. -/
  table : Text → Bool
  /-- Those with JanusGraph's table `edgestore`. -/
  edgestore : Text → Bool
  /-- Its rows. -/
  value : Text → Text → Option Text
  /-- The statements that have ever been applied. -/
  applied : List Statement
  /-- The statements a process's last `cqlsh` has executed that were not applied. -/
  missed : Nat → List Statement

/-- How a call to `cqlsh` ends. -/
inductive Ending
  | ok
  | failed
  | expired
  deriving DecidableEq

/-- How nature lets a call go. -/
structure Choice where
  ending : Ending := .ok
  /-- Whether a statement that does not end well is applied. -/
  applied : Bool := true
  stderr : Text := []

/-- The answer to a call that would print `stdout`; one that is refused can still expire. -/
def Choice.answer (choice : Choice) (accepted : Bool) (stdout : Text) : Answer :=
  match choice.ending with
  | .ok => if accepted then .ok stdout choice.stderr else .failed choice.stderr
  | .failed => .failed choice.stderr
  | .expired => .expired

/-- The role exists, may log in, and has the password. -/
def World.accepts (w : World) (user : RoleName) (password : Text) : Bool :=
  (w.role user).any fun role => role.login && role.password == password

/-- The user may execute the statement. -/
def World.authorizes (w : World) (user : RoleName) (statement : Statement) : Bool :=
  (w.role user).any (·.superuser) || match statement with
    | .selectRelease => true
    | .selectValue keyspace _ | .selectEdges keyspace | .selectProbe keyspace =>
      [.all, .select].any fun permission => w.grants.contains (permission, keyspace, user)
    | .insert keyspace _ _ =>
      [.all, .modify].any fun permission => w.grants.contains (permission, keyspace, user)
    | .createTable keyspace => w.grants.contains (.all, keyspace, user)
    | _ => false

/-- What the statement speaks of is there. -/
def World.has (w : World) : Statement → Bool
  | .grant _ keyspace role => (w.keyspace keyspace).isSome && (w.role role).isSome
  | .createTable keyspace => (w.keyspace keyspace).isSome
  | .alterRole role _ => (w.role role).isSome
  | .insert keyspace _ _ | .selectValue keyspace _ | .selectProbe keyspace => w.table keyspace
  | .selectEdges keyspace => w.edgestore keyspace
  | .createKeyspace .. | .createRole .. | .selectRelease => true

/-- What a statement does, where it is applied. -/
def World.apply (w : World) : Statement → World
  | .createKeyspace keyspace dc =>
    { w with keyspace := Function.update w.keyspace keyspace (some ((w.keyspace keyspace).getD dc)) }
  | .createRole role password superuser =>
    { w with role := Function.update w.role role (some ((w.role role).getD ⟨password, true, superuser⟩)) }
  | .grant permission keyspace role => { w with grants := (permission, keyspace, role) :: w.grants }
  | .createTable keyspace => { w with table := Function.update w.table keyspace true }
  | .alterRole role login =>
    { w with role := Function.update w.role role ((w.role role).map fun r => { r with login := login }) }
  | .insert keyspace id value =>
    { w with value := Function.update w.value keyspace (Function.update (w.value keyspace) id (some value)) }
  | .selectRelease | .selectValue .. | .selectEdges _ | .selectProbe _ => w

/-- A result of one column, as `cqlsh` prints it. -/
def printed (column : Text) (rows : List Text) : Text :=
  text "\n " ++ column ++ text "\n" ++ List.replicate (column.length + 2) '-' ++ text "\n" ++
  rows.flatMap (fun row => text " " ++ row ++ text "\n") ++
  text "\n(" ++ text (toString rows.length) ++ text " rows)\n"

/-- What is printed of a statement, where the script reads it. -/
def World.output (w : World) : Statement → Text
  | .selectRelease => printed (text "release_version") [text "5.0"]
  | .selectValue keyspace id => printed (text "value") (w.value keyspace id).toList
  | _ => []

/-- The statement is applied. -/
def Choice.lands (choice : Choice) (w : World) (user : RoleName) (statement : Statement) : Bool :=
  w.authorizes user statement && w.has statement && (choice.ending == .ok || choice.applied)

/-- A statement is applied. -/
def World.land (w : World) (statement : Statement) : World :=
  { w.apply statement with applied := statement :: w.applied }

/-- A process's statement is not applied. -/
def World.miss (w : World) (p : Nat) (statement : Statement) : World :=
  { w with missed := Function.update w.missed p (statement :: w.missed p) }

/-- What a process's call answers and does, by nature's choice. -/
def perform (p : Nat) : (c : Call) → Choice → World → Option (c.Ret × World)
  | .connect user password, choice, w =>
    some (choice.answer (w.accepts user password) [], { w with missed := Function.update w.missed p [] })
  | .execute user statement, choice, w =>
    some (choice.answer (w.authorizes user statement && w.has statement) (w.output statement),
      if choice.lands w user statement then w.land statement else w.miss p statement)
  | .sleep _, _, w => some ((), w)

/-- Processes of the script at one Cassandra; a process can be killed at any time. -/
def machine : Machine Nat Call Call.Ret World Choice Empty where
  perform := perform
  start _ w := some w
  stop _ w := w
  env e := e.elim

/-- A pool of processes. -/
abbrev Processes := Pool Nat Call Call.Ret World Exit

/-- Where runs begin: there is no marker yet. -/
structure Initial (setup : Setup) (w : World) : Prop where
  unmarked : w.value setup.state (text "bootstrap-v1") = none
  unapplied : w.applied = []

/-- A new Cassandra, with the default account only. -/
def fresh : World where
  role
    | .cassandra => some ⟨text "cassandra", true, true⟩
    | _ => none
  keyspace _ := none
  grants := []
  table _ := false
  edgestore _ := false
  value _ _ := none
  applied := []
  missed _ := []

theorem fresh_initial (setup : Setup) : Initial setup fresh := ⟨rfl, rfl⟩

end CartyxInfra.Cassandra
