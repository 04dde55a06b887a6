/-
`cluster-api.mjs`: the calls a backup run makes, and what waits and recovers
with them.

A call to the API server, to the bucket or to the file system can fail, with
a text, and then throws. `process.exit` ends a run at once: it is a stop that
no handler takes, as is the end of a run that lists more pages than a run is
followed for.
-/
import CartyxInfra.Lib.Fallible
import CartyxInfra.Backup.Objects

namespace CartyxInfra.Backup

open JString

/-- A GET of one of the four objects `Promise.all` reads. -/
inductive Path
  | workload (component : Component)
  | release (reconciler : Reconciler)
  deriving DecidableEq

/-- What the archive holds besides the data directory and the credentials. -/
structure Recovery where
  config : List (JString × JString)
  manifest : Manifest

/-- The calls of a run: the API server, the bucket, its own files and `tar`. -/
inductive Call
  | getLease
  | patchLease (patch : LeasePatch)
  /-- The pods of a name. -/
  | getPod (name : PodName)
  | getWorkload (component : Component)
  | getRelease (reconciler : Reconciler)
  /-- The number of pods of a component. -/
  | getPods (component : Component)
  | getConfig
  | patchScale (component : Component) (replicas : Nat)
  | patchSuspend (reconciler : Reconciler) (suspend : Bool)
  | patchStatus (data : Status)
  /-- `Date.now()`. -/
  | now
  /-- The flag the signal handlers set. -/
  | cancelled
  /-- The order in which the answers to concurrent GETs are read. -/
  | arrival (paths : List Path)
  /-- An access to the run's own files. -/
  | files
  | startTar (recovery : Recovery)
  /-- The end of `tar`, with the archive it wrote. -/
  | exitTar
  | getObject (key : JString)
  | putObject (key : JString) (body : Body)
  | deleteObject (key : JString)
  | listObjects (pre : JString) (token : Option JString)

/-- What a call answers. -/
@[reducible] def Call.Ret : Call → Type
  | .getLease => Reply Lease
  | .getPod _ => Reply (List Phase)
  | .getWorkload _ => Reply Workload
  | .getRelease _ => Reply Release
  | .getPods _ => Reply Nat
  | .getConfig => Reply (List (JString × JString))
  | .now => Int
  | .cancelled => Bool
  | .arrival _ => List Path
  | .startTar _ => Unit
  | .exitTar => Reply Bytes
  | .getObject _ => Reply Body
  | .listObjects .. => Reply Page
  | .patchLease _ | .patchScale .. | .patchSuspend .. | .patchStatus _ | .files
  | .putObject .. | .deleteObject _ => Reply Unit

/-- How a run leaves its normal course. -/
inductive Stop
  | error (message : JString)
  | exit
  deriving DecidableEq

instance : Throwable Stop := ⟨.error⟩

/-- A run's `let` variables. -/
structure Variables where
  original : Option Original
  locked : Bool
  needsRecovery : Bool

/-- A script with the run's variables. -/
abbrev Js (α : Type) := Program Call Call.Ret Stop Variables α

-- Each call, which throws where it has failed.

def getLease : Js Lease := Program.make .getLease >>= await
def patchLease (patch : LeasePatch) : Js Unit := Program.make (.patchLease patch) >>= await
def getPod (name : PodName) : Js (List Phase) := Program.make (.getPod name) >>= await
def getWorkload (component : Component) : Js Workload := Program.make (.getWorkload component) >>= await
def getRelease (reconciler : Reconciler) : Js Release := Program.make (.getRelease reconciler) >>= await
def getPods (component : Component) : Js Nat := Program.make (.getPods component) >>= await
def getConfig : Js (List (JString × JString)) := Program.make .getConfig >>= await
def patchScale (component : Component) (replicas : Nat) : Js Unit :=
  Program.make (.patchScale component replicas) >>= await
def patchSuspend (reconciler : Reconciler) (suspend : Bool) : Js Unit :=
  Program.make (.patchSuspend reconciler suspend) >>= await
def patchStatus (data : Status) : Js Unit := Program.make (.patchStatus data) >>= await
def now : Js Int := Program.make Call.now
def cancelled : Js Bool := Program.make Call.cancelled
def arrival (paths : List Path) : Js (List Path) := Program.make (Call.arrival paths)
def files : Js Unit := Program.make .files >>= await
def startTar (recovery : Recovery) : Js Unit := Program.make (Call.startTar recovery)
def exitTar : Js Bytes := Program.make .exitTar >>= await
def getObject (key : JString) : Js Body := Program.make (.getObject key) >>= await
def putObject (key : JString) (body : Body) : Js Unit := Program.make (.putObject key body) >>= await
def deleteObject (key : JString) : Js Unit := Program.make (.deleteObject key) >>= await
def listObjects (pre : JString) (token : Option JString) : Js Page :=
  Program.make (.listObjects pre token) >>= await

/-- The loop of `until`: with three seconds between the polls, the deadline
ends it before the polls run out. -/
def poll (check : Js Bool) (label : JString) (deadline : Int) : Nat → Js Unit
  | 0 => fail (utf16 "Timed out waiting for " ++ label)
  | polls + 1 => do
    let done ← check
    if done then pure ()
    else do
      let time ← now
      if time < deadline then poll check label deadline polls
      else fail (utf16 "Timed out waiting for " ++ label)

/-- `until(check, label, seconds)`. -/
def waitUntil (check : Js Bool) (label : JString) (seconds : Nat) : Js Unit := do
  let start ← now
  poll check label (start + seconds * 1000) (seconds / 3 + 1)

/-- Both databases have their original replicas ready. -/
def recovered (original : Original) : Js Bool := do
  let cassandra ← getWorkload .cassandra
  let graph ← getWorkload .janusgraph
  pure (cassandra.readyReplicas.getD 0 == original.cassandra &&
    graph.availableReplicas.getD 0 == original.graph)

/-- Restores Cassandra before JanusGraph, and Flux when both have recovered. -/
def resume (original : Original) : Js Unit := do
  patchScale .cassandra original.cassandra
  patchScale .janusgraph original.graph
  waitUntil (recovered original) (utf16 "database recovery") 600
  patchSuspend .helm original.helm
  patchSuspend .flux original.flux

end CartyxInfra.Backup
