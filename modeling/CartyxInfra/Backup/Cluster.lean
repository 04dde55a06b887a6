/-
The cluster and the bucket a backup runs in: what each call does there, and
what else moves there.

A failing call has its write applied or not, but never later. A patch under
a `resourceVersion` the Lease has no more is refused. The pod of a live run is
reported Running or Pending. Only the runs write replica counts, suspensions,
the Lease and the bucket; the reconcilers and the controllers write the rest.
-/
import CartyxInfra.Backup.BackupCluster

namespace CartyxInfra.Backup

open JString

/-- Whether a pod's run is still to start, goes on or is over. -/
inductive Life
  | unborn
  | live
  | dead
  deriving DecidableEq

/-- The API server's objects, the bucket and the pods, with what the runs have read and done. -/
structure World where
  lease : Lease
  workload : Component → Workload
  release : Reconciler → Release
  /-- The pods of a component. -/
  pods : Component → Nat
  config : List (JString × JString)
  status : Status
  bucket : Bucket
  /-- The keys of every object there is or was. -/
  written : List JString
  clock : Int
  life : PodName → Life
  /-- The runs a signal was sent to. -/
  cancelled : PodName → Bool
  /-- The status there was when a run took the Lease. -/
  took : PodName → Option Status
  /-- The last replica count a run has set, for either database. -/
  scaled : PodName → Option Nat
  /-- The last answer a run read of each object. -/
  observed : PodName → Snapshot

/-- How nature lets a call go. -/
structure Choice extends Fallible where
  /-- The phase of the pod asked for, if there is one. -/
  phases : List Phase := []
  order : List Path := []
  /-- What the bucket stores, where not what was sent. -/
  stored : Option Body := none
  /-- What `tar` has written. -/
  content : Bytes := []
  /-- The length of a page. -/
  size : Nat := 1000

/-- The snapshot with an answer about a workload. -/
def Snapshot.setWorkload (s : Snapshot) (workload : Workload) : Component → Snapshot
  | .janusgraph => { s with graph := some workload }
  | .cassandra => { s with cassandra := some workload }

/-- The snapshot with an answer about a reconciled object. -/
def Snapshot.setRelease (s : Snapshot) (release : Release) : Reconciler → Snapshot
  | .helm => { s with helm := some release }
  | .flux => { s with flux := some release }

/-- A run has these answers last. -/
def World.observe (w : World) (p : PodName) (snapshot : Snapshot) : World :=
  { w with observed := Function.update w.observed p snapshot }

/-- A read the run keeps in mind. -/
def Choice.observe {α : Type} (choice : Choice) (w : World) (p : PodName) (a : α)
    (snapshot : Snapshot) : Option (Reply α × World) :=
  some (choice.reply a, if choice.error.isNone then w.observe p snapshot else w)

/-- A workload is this one now. -/
def World.setWorkload (w : World) (c : Component) (workload : Workload) : World :=
  { w with workload := Function.update w.workload c workload }

/-- A reconciled object is this one now. -/
def World.setRelease (w : World) (r : Reconciler) (release : Release) : World :=
  { w with release := Function.update w.release r release }

/-- A run's patch of a workload's `scale`. -/
def World.patchScale (w : World) (p : PodName) (c : Component) (replicas : Nat) : World :=
  { w.setWorkload c { w.workload c with replicas := replicas } with
    scaled := Function.update w.scaled p (some replicas) }

/-- A run's patch of the Lease; one that names the run takes it. -/
def World.patchLease (w : World) (p : PodName) (patch : LeasePatch) : World :=
  { w with
    lease := w.lease.patch patch
    took := if patch.holderIdentity = some p then Function.update w.took p (some w.status) else w.took }

/-- A patch of the status ConfigMap. -/
def World.patchStatus (w : World) (data : Status) : World := { w with status := w.status.patch data }

/-- A patch of `spec.suspend`. -/
def World.patchSuspend (w : World) (r : Reconciler) (suspend : Bool) : World :=
  w.setRelease r { w.release r with suspend := suspend }

/-- An object is stored under a key. -/
def World.putObject (w : World) (key : JString) (body : Body) : World :=
  { w with bucket := w.bucket.put ⟨key, w.clock, body⟩, written := key :: w.written }

/-- The object under a key is removed. -/
def World.deleteObject (w : World) (key : JString) : World := { w with bucket := w.bucket.delete key }

/-- What a PUT of an object stores. -/
def Choice.body (choice : Choice) : Body → Body
  | .bytes content =>
    match choice.stored with
    | some (.bytes content') => .bytes content'
    | _ => .bytes content
  | .json completion => choice.stored.getD (.json completion)

/-- What a run's call answers and does, by nature's choice. -/
def perform (p : PodName) : (c : Call) → Choice → World → Option (c.Ret × World)
  | .getLease, choice, w => choice.read w w.lease
  | .patchLease patch, choice, w =>
    if patch.resourceVersion.all (· == w.lease.resourceVersion) then
      choice.write w (w.patchLease p patch)
    else choice.refuse w
  | .getPod name, choice, w =>
    if w.life name = .live ∧ ¬ choice.phases.any Phase.active then none
    else choice.read w choice.phases
  | .getWorkload c, choice, w =>
    choice.observe w p (w.workload c) ((w.observed p).setWorkload (w.workload c) c)
  | .getRelease r, choice, w =>
    choice.observe w p (w.release r) ((w.observed p).setRelease (w.release r) r)
  | .getPods c, choice, w => choice.read w (w.pods c)
  | .getConfig, choice, w => choice.read w w.config
  | .patchScale c replicas, choice, w => choice.write w (w.patchScale p c replicas)
  | .patchSuspend r suspend, choice, w => choice.write w (w.patchSuspend r suspend)
  | .patchStatus data, choice, w => choice.write w (w.patchStatus data)
  | .now, _, w => some (w.clock, w)
  | .cancelled, _, w => some (w.cancelled p, w)
  | .arrival paths, choice, w =>
    if choice.order.isPerm paths then some (choice.order, w) else none
  | .files, choice, w => choice.read w ()
  | .startTar _, _, w => some ((), w)
  | .exitTar, choice, w => choice.read w choice.content
  | .getObject key, choice, w =>
    match w.bucket.get key with
    | some body => choice.read w body
    | none => choice.refuse w
  | .putObject key body, choice, w =>
    choice.write w (w.putObject key (choice.body body))
  | .deleteObject key, choice, w => choice.write w (w.deleteObject key)
  | .listObjects pre token, choice, w =>
    if choice.size = 0 then none else choice.read w (w.bucket.page pre token choice.size)

/-- What a call leaves where it takes effect. -/
def effect (p : PodName) : Call → Choice → World → World
  | .getWorkload c, _, w => w.observe p ((w.observed p).setWorkload (w.workload c) c)
  | .getRelease r, _, w => w.observe p ((w.observed p).setRelease (w.release r) r)
  | .patchLease patch, _, w => w.patchLease p patch
  | .patchScale c replicas, _, w => w.patchScale p c replicas
  | .patchSuspend r suspend, _, w => w.patchSuspend r suspend
  | .patchStatus data, _, w => w.patchStatus data
  | .putObject key body, choice, w => w.putObject key (choice.body body)
  | .deleteObject key, _, w => w.deleteObject key
  | _, _, w => w

/-- A call takes effect, or nothing happens. -/
theorem perform_cases {p : PodName} {c : Call} {choice : Choice} {w w' : World} {r : c.Ret}
    (h : perform p c choice w = some (r, w')) : w' = w ∨ w' = effect p c choice w := by
  cases c with
  | getLease | getPods | getConfig | files | exitTar | now | cancelled | startTar =>
    simp only [perform, Fallible.read, Option.some.injEq, Prod.mk.injEq] at h
    exact .inl h.2.symm
  | patchStatus | patchScale | patchSuspend | putObject | deleteObject | getWorkload | getRelease =>
    simp only [perform, Fallible.write, Choice.observe, Option.some.injEq, Prod.mk.injEq] at h
    obtain ⟨-, rfl⟩ := h
    split
    · exact .inr rfl
    · exact .inl rfl
  | patchLease =>
    simp only [perform, Fallible.write, Fallible.refuse] at h
    split at h <;> simp only [Option.some.injEq, Prod.mk.injEq] at h <;> obtain ⟨-, rfl⟩ := h
    · split
      · exact .inr rfl
      · exact .inl rfl
    · exact .inl rfl
  | getPod | listObjects | arrival =>
    simp only [perform, Fallible.read] at h
    split at h <;> cases h
    exact .inl rfl
  | getObject =>
    simp only [perform, Fallible.read, Fallible.refuse] at h
    split at h <;> cases h <;> exact .inl rfl

theorem perform_observed {p q : PodName} {c : Call} {choice : Choice} {w w' : World} {r : c.Ret} (hq : p ≠ q)
    (h : perform q c choice w = some (r, w')) : w'.observed p = w.observed p := by
  rcases perform_cases h with rfl | rfl
  · rfl
  · cases c with
    | getWorkload | getRelease => exact Function.update_of_ne hq ..
    | _ => rfl

/-- What moves by itself. -/
inductive Env
  | tick (ms : Nat)
  | cancel (p : PodName)
  /-- A controller reports a workload's replicas. -/
  | report (c : Component) (ready available : Option Nat)
  | podCount (c : Component) (pods : Nat)
  /-- A reconcile begins, and shows until it ends. -/
  | begin (r : Reconciler) (conditions : List Condition)
  /-- Helm changes a workload's template. -/
  | upgrade (c : Component) (container : Container)
  /-- A reconcile ends, in success or failure. -/
  | finish (r : Reconciler) (conditions : List Condition) (revision : Option JString)
      (history : List (Option JString))

/-- What a step of the rest of the cluster does, where it is possible. -/
def env : Env → World → Option World
  | .tick ms, w => some { w with clock := w.clock + ms }
  | .cancel p, w => some { w with cancelled := Function.update w.cancelled p true }
  | .report c ready available, w =>
    some (w.setWorkload c { w.workload c with readyReplicas := ready, availableReplicas := available })
  | .podCount c pods, w => some { w with pods := Function.update w.pods c pods }
  | .begin r conditions, w =>
    let release := { w.release r with conditions := conditions }
    if !(w.release r).suspend && !(w.release r).is .reconciling && release.is .reconciling then
      some (w.setRelease r release)
    else none
  | .upgrade c container, w =>
    if (w.release .helm).is .reconciling then
      some (w.setWorkload c { w.workload c with container := container })
    else none
  | .finish r conditions revision history, w =>
    let release := { w.release r with conditions, lastAppliedRevision := revision, history }
    if (w.release r).is .reconciling && !release.is .reconciling then some (w.setRelease r release)
    else none

theorem env_observed {e : Env} {w w' : World} (h : env e w = some w') : w'.observed = w.observed := by
  cases e with
  | tick | cancel | podCount | report =>
    cases h
    rfl
  | begin | finish | upgrade =>
    simp only [env] at h
    split at h
    · cases h
      rfl
    · cases h

/-- A pod starts its one run. -/
def start (p : PodName) (w : World) : Option World :=
  if w.life p = .unborn then some { w with life := Function.update w.life p .live } else none

theorem start_eq {p : PodName} {w w' : World} (h : start p w = some w') :
    w.life p = .unborn ∧ w' = { w with life := Function.update w.life p .live } := by
  simp only [start, Option.ite_none_right_eq_some, Option.some.injEq] at h
  exact ⟨h.1, h.2.symm⟩

/-- A run ends or is killed. -/
def stop (p : PodName) (w : World) : World := { w with life := Function.update w.life p .dead }

/-- Backup runs in a cluster. -/
def machine : Machine PodName Call Call.Ret World Choice Env where
  perform := perform
  start := start
  stop := stop
  env := env

/-- A pool of backup runs. -/
abbrev Runs := Pool PodName Call Call.Ret World (Except Stop Unit × Variables)

/-- The services are as a backup found them. -/
structure Restored (w : World) : Prop where
  graph : (w.workload .janusgraph).replicas = 1
  cassandra : (w.workload .cassandra).replicas = 1
  helm : (w.release .helm).suspend = false
  flux : (w.release .flux).suspend = false

/-- The replicas that serve: JanusGraph's available ones, Cassandra's ready ones. -/
def Component.serving : Component → Workload → Option Nat
  | .janusgraph, workload => workload.availableReplicas
  | .cassandra, workload => workload.readyReplicas

/-- Where runs begin: the services restored, the Lease free, no run yet. -/
structure Initial (w : World) : Prop where
  restored : Restored w
  free : w.lease.holderIdentity = none
  unborn : ∀ p, w.life p = .unborn
  untaken : ∀ p, w.took p = none
  unscaled : ∀ p, w.scaled p = none
  unread : ∀ p, w.observed p = {}

/-! ## A cluster at rest -/

/-- A release that has been reconciled, and both databases serving. -/
def atRest : World where
  lease := ⟨1, none, none⟩
  workload c :=
    { replicas := 1
      container :=
        { image := match c with
            | .janusgraph => utf16 "janusgraph:1"
            | .cassandra => utf16 "cassandra:5"
          env := some [(utf16 "GRAPH_KEYSPACE", utf16 "cartyx_graph"),
            (utf16 "STATE_KEYSPACE", utf16 "cartyx_state")] }
      readyReplicas := some 1
      availableReplicas := some 1 }
  release _ :=
    { suspend := false
      conditions := [⟨.ready, .true⟩]
      lastAppliedRevision := none
      history := [some (utf16 "0.1.0")] }
  pods _ := 1
  config := []
  status := {}
  bucket := []
  written := []
  clock := 0
  life _ := .unborn
  cancelled _ := false
  took _ := none
  scaled _ := none
  observed _ := {}

theorem atRest_initial : Initial atRest :=
  ⟨⟨rfl, rfl, rfl, rfl⟩, rfl, fun _ => rfl, fun _ => rfl, fun _ => rfl, fun _ => rfl⟩

/-- A setup with the content for its own checksum. -/
def sampleSetup : Setup := ⟨.dev, fun _ => utf16 "2026-01-05T08-00-00-000Z", List.map UInt8.toUInt16, 1⟩

/-- Calls that succeed. -/
def fine (n : Nat) : List Choice := List.replicate n {}

/-- The answers to concurrent GETs, in the order they are asked for. -/
def inOrder (paths : List Path) : List Choice := { order := paths } :: fine paths.length

/-- The answers of a preflight in which nothing fails, the Lease's first. -/
def preflightAnswers : List Choice :=
  fine 1 ++ inOrder [.workload .janusgraph, .workload .cassandra, .release .helm, .release .flux]

/-- A run's next calls, with nature's choice for each. -/
def acts (p : PodName) (choices : List Choice) : List (Event PodName Mode Choice Env) :=
  choices.map (.act p)

def first : PodName := ⟨utf16 "b1", by decide⟩
def second : PodName := ⟨utf16 "b2", by decide⟩
def early : PodName := ⟨utf16 "r1", by decide⟩
def late : PodName := ⟨utf16 "r2", by decide⟩

/-- A backup none of whose calls fail, up to the start of `tar`, with what
happens between its preflight and its taking the Lease. -/
def toStartTar (p : PodName) (events : List (Event PodName Mode Choice Env)) :
    List (Event PodName Mode Choice Env) :=
  [.start p .backup] ++ acts p preflightAnswers ++ events ++ acts p (fine 9) ++
  acts p (inOrder [.workload .janusgraph, .workload .cassandra, .release .helm] ++ fine 3) ++
  [.env (.podCount .janusgraph 0)] ++ acts p (fine 4) ++ [.env (.podCount .cassandra 0)] ++ acts p (fine 7)

/-- The same up to the end of `tar`, undisturbed. -/
def toTar (p : PodName) : List (Event PodName Mode Choice Env) := toStartTar p [] ++ acts p (fine 1)

end CartyxInfra.Backup
