/-
`backup-cluster.mjs`: one run, as a backup or with the argument `recover`.
-/
import Mathlib.Data.List.Sort
import CartyxInfra.Backup.ClusterApi

namespace CartyxInfra.Backup

open JString

/-- What a deployment fixes of its runs. -/
structure Setup where
  space : Namespace
  /-- The time a pod's run starts at, as the first part of its id. -/
  stamp : PodName → JString
  sha256 : Bytes → JString
  /-- For how many pages of a listing a run is followed. -/
  pages : Nat

/-- What the script is called with: `recover`, or nothing. -/
inductive Mode
  | backup
  | recover
  deriving DecidableEq

/-- `prefix`, of the namespace's keys. -/
def Setup.pre (setup : Setup) : JString :=
  utf16 "cartyx-data/" ++ setup.space.text ++ utf16 "/cluster/"

/-- `id`: the time the run starts at, and its pod's name. -/
def Setup.id (setup : Setup) (owner : PodName) : JString :=
  setup.stamp owner ++ utf16 "-" ++ owner.text

/-- `Key`, the archive's. -/
def Setup.Key (setup : Setup) (owner : PodName) : JString :=
  setup.pre ++ setup.id owner ++ utf16 ".tar.gz"

/-- `checkpoint()`: throws once a signal has come. -/
def checkpoint : Js Unit := do
  let flag ← cancelled
  throwIf flag (utf16 "Backup interrupted; restoring services")

/-! ## Retention -/

/-- Every page of the listing, from a token on. -/
def listEntries (pre : JString) : Nat → Option JString → List Entry → Js (List Entry)
  | 0, _, _ => throw .exit
  | pages + 1, token, entries => do
    let page ← listObjects pre token
    match page.next with
      | none => pure (entries ++ page.contents)
      | some next => listEntries pre pages (some next) (entries ++ page.contents)

/-- `text.endsWith(suffix)`. -/
def endsWith (text suffix : JString) : Bool := suffix.isSuffixOf text

/-- The manifests of a listing, newest first; the sort keeps the listing's
order among manifests of one time. -/
def manifests (entries : List Entry) : List Entry :=
  (entries.filter fun e => endsWith e.key (utf16 ".tar.gz.json")).mergeSort
    fun a b => decide (b.lastModified ≤ a.lastModified)

/-- `(Date.now() - lastModified) / 86400000`. The quotients here are far
enough from the next double that the rounding decides no comparison. -/
def age (time lastModified : Int) : Rat := (time - lastModified : Rat) / 86400000

/-- `Math.floor((lastModified / 86400000 + 3) / 7)`: the weeks begin on Monday. -/
def week (lastModified : Int) : Int := Rat.floor (((lastModified : Rat) / 86400000 + 3) / 7)

/-- `entry.Key.slice(0, -5)`. -/
def archiveKey (key : JString) : JString := key.take (key.length - 5)

/-- Deletes a manifest and its archive; a key of any other form throws. -/
def expire (pre : JString) (entry : Entry) : Js Unit := do
  let key := archiveKey entry.key
  throwIf (!pre.isPrefixOf key || !endsWith key (utf16 ".tar.gz")) (utf16 "Invalid retention key")
  -- The completion marker goes first, so a partial delete is never restorable.
  deleteObject entry.key
  deleteObject key

/-- Whether the loop keeps a manifest, given the weeks that have one already. -/
def keep (time : Int) (weeks : List Int) (entry : Entry) : Bool :=
  age time entry.lastModified ≤ 14 ||
    age time entry.lastModified ≤ 56 && !weeks.contains (week entry.lastModified)

/-- The end of the loop's body: nothing for a manifest that is kept. -/
def expireUnless (keep : Bool) (pre : JString) (entry : Entry) : Js Unit :=
  if keep then pure () else expire pre entry

/-- The loop over the manifests. -/
def retire (pre : JString) : List Entry → List Int → Js Unit
  | [], _ => pure ()
  | entry :: rest, weeks => do
    let time ← now
    expireUnless (keep time weeks entry) pre entry
    retire pre rest (week entry.lastModified :: weeks)

/-- `retireOldBackups()`: the manifests of the whole listing, newest first. -/
def retireOldBackups (setup : Setup) : Js Unit := do
  let entries ← listEntries setup.pre setup.pages none []
  retire setup.pre (manifests entries) []

/-! ## Recovery -/

/-- The mode `recover`, with the Lease as it was read; it never returns but ends the run. -/
def recover (lease : Lease) : Js Unit :=
  match lease.holderIdentity with
  | none => throw .exit
  | some holder => do
    let pods ← getPod holder
    throwIf (pods.any Phase.active)
      (utf16 "Original backup pod is still active; refusing concurrent recovery")
    match lease.original with
      | none => fail (utf16 "undefined is not valid JSON")
      | some previous => do
        throwIf (previous != ⟨1, 1, false, false⟩) (utf16 "Unexpected recovery state; inspect manually")
        resume previous
        patchLease { resourceVersion := some lease.resourceVersion, holderIdentity := none }
        patchStatus { phase := some (utf16 "recovered"),
                      error := some (utf16 "Interrupted backup recovered; run a new backup") }
        throw .exit

/-! ## Backup -/

/-- What the two `Promise.all` read. -/
structure Snapshot where
  graph : Option Workload := none
  cassandra : Option Workload := none
  helm : Option Release := none
  flux : Option Release := none

/-- The GET of a path, with its answer in the place it has in the list. -/
def Snapshot.read (snapshot : Snapshot) : Path → Js Snapshot
  | .workload .janusgraph => do
    let graph ← getWorkload .janusgraph
    pure { snapshot with graph := some graph }
  | .workload .cassandra => do
    let cassandra ← getWorkload .cassandra
    pure { snapshot with cassandra := some cassandra }
  | .release .helm => do
    let helm ← getRelease .helm
    pure { snapshot with helm := some helm }
  | .release .flux => do
    let flux ← getRelease .flux
    pure { snapshot with flux := some flux }

/-- `Promise.all(paths.map(path => api('GET', path)))`: the answers are read
in any order, and the first failure is thrown. -/
def readAll (paths : List Path) : Js Snapshot := do
  let order ← arrival paths
  order.foldlM Snapshot.read {}

/-- The checks before anything is changed. -/
def preflight : Js Unit := do
  let read ← readAll [.workload .janusgraph, .workload .cassandra, .release .helm, .release .flux]
  match read with
    | ⟨some graph, some cassandra, some helm, some flux⟩ => do
      throwIf (graph.replicas != 1 || cassandra.replicas != 1 || helm.suspend || flux.suspend)
        (utf16 "Expected active Flux release and one replica of each database")
      throwIf (helm.is .reconciling) (utf16 "Helm release is reconciling; retry after rollout")
      throwIf (!helm.is .ready || graph.availableReplicas != some 1 || cassandra.readyReplicas != some 1)
        (utf16 "Source databases must be Ready before a scheduled backup")
    | _ => fail (utf16 "Cannot read properties of undefined")

/-- `original`, as the preflight lets nothing else pass. -/
def original : Original := ⟨1, 1, false, false⟩

/-- Takes the Lease as it was read. -/
def acquire (owner : PodName) (lease : Lease) : Js Unit := do
  modify fun vars => { vars with original := some original }
  patchLease { resourceVersion := some lease.resourceVersion, original := some original,
               holderIdentity := some owner }
  modify fun vars => { vars with locked := true }

/-- Suspends Flux, then Helm, each until it is idle, and reads the release then. -/
def suspend : Js Snapshot := do
  patchSuspend .flux true
  waitUntil (do return !(← getRelease .flux).is .reconciling) (utf16 "Flux Kustomization idle") 120
  patchSuspend .helm true
  waitUntil (do return !(← getRelease .helm).is .reconciling) (utf16 "Helm idle") 120
  let read ← readAll [.workload .janusgraph, .workload .cassandra, .release .helm]
  checkpoint
  pure read

/-- Scales a database to zero and waits until it has no pods. -/
def scaleDown (component : Component) (label : JString) : Js Unit := do
  patchScale component 0
  waitUntil (do return (← getPods component) == 0) label 600
  checkpoint

/-- `env.find(e => e.name === name)?.value`, of a container that has an `env`. -/
def Container.value (container : Container) (name : JString) : Js (Option JString) :=
  match container.env with
  | none => fail (utf16 "Cannot read properties of undefined (reading 'find')")
  | some env => pure ((env.find? fun e => e.1 == name).map (·.2))

/-- `helm.status?.lastAppliedRevision ?? helm.status?.history?.[0]?.chartVersion`. -/
def Release.chartRevision (helm : Release) : Option JString :=
  helm.lastAppliedRevision.orElse fun _ => helm.history.head?.join

/-- `manifest`, from what was read after both were suspended. -/
def manifest (setup : Setup) (owner : PodName) (read : Snapshot) : Js Manifest :=
  match read with
  | ⟨some graph, some cassandra, some helm, _⟩ => do
    let capturedAt ← now
    let graphKeyspace ← graph.container.value (utf16 "GRAPH_KEYSPACE")
    let stateKeyspace ← cassandra.container.value (utf16 "STATE_KEYSPACE")
    pure { environment := setup.space, id := setup.id owner, capturedAt, graphKeyspace, stateKeyspace,
           cassandraImage := cassandra.container.image, janusgraphImage := graph.container.image,
           chartRevision := helm.chartRevision }
  | _ => fail (utf16 "Cannot read properties of undefined")

/-- The archive of the stopped data directory. -/
def archive (setup : Setup) (owner : PodName) (read : Snapshot) : Js (Manifest × Bytes) := do
  patchStatus { phase := some (utf16 "archiving") }
  files
  let config ← getConfig
  let manifest ← manifest setup owner read
  files
  startTar ⟨config, manifest⟩
  let content ← exitTar
  checkpoint
  pure (manifest, content)

/-- Uploads the archive, reads it back, and publishes it. -/
def publish (setup : Setup) (owner : PodName) (manifest : Manifest) (content : Bytes) : Js Completion := do
  files
  let completion : Completion := ⟨manifest, setup.sha256 content, content.length, setup.Key owner⟩
  putObject (setup.Key owner) (.bytes content)
  let readback ← getObject (setup.Key owner)
  match readback with
    | .json _ => fail (utf16 "Off-host read-back checksum mismatch")
    | .bytes stored => do
      throwIf (setup.sha256 stored != completion.sha256) (utf16 "Off-host read-back checksum mismatch")
      checkpoint
      putObject (setup.Key owner ++ utf16 ".json") (.json completion)
      pure completion

/-- `needsRecovery = b`. -/
def needsRecovery (b : Bool) : Js Unit := modify fun vars => { vars with needsRecovery := b }

/-- `await resume(original)`, where `original` was set. -/
def resumeOriginal : Js Unit := do
  let vars ← get
  match vars.original with
    | none => fail (utf16 "Cannot read properties of undefined")
    | some original => resume original

/-- The mode without arguments, with the Lease as it was read. -/
def backup (setup : Setup) (owner : PodName) (lease : Lease) : Js Unit := do
  throwIf lease.holderIdentity.isSome
    (utf16 "Backup lease is held; inspect/recover the previous operation before retrying")
  preflight
  acquire owner lease
  let lastAttempt ← now
  patchStatus { phase := some (utf16 "preparing"), lastAttempt := some lastAttempt, owner := some owner }
  needsRecovery true
  let read ← suspend
  scaleDown .janusgraph (utf16 "JanusGraph shutdown")
  scaleDown .cassandra (utf16 "Cassandra shutdown")
  let (manifest, content) ← archive setup owner read
  -- The source is brought back before uploading or verifying.
  resumeOriginal
  needsRecovery false
  patchStatus { phase := some (utf16 "uploading") }
  let completion ← publish setup owner manifest content
  retireOldBackups setup
  let lastSuccess ← now
  patchStatus { phase := some (utf16 "completed"), lastSuccess := some lastSuccess,
                key := some (completion.key ++ utf16 ".json"), sha256 := some completion.sha256,
                bytes := some completion.bytes, error := some [] }

/-- `promise.catch(() => {})`, which leaves `process.exit` alone. -/
def ignoringErrors (m : Js Unit) : Js Unit :=
  tryCatch m fun
    | .error _ => pure ()
    | .exit => throw .exit

/-- The `catch` clause. -/
def failed (message : JString) : Js Unit := do
  let vars ← get
  if vars.locked then
    ignoringErrors (patchStatus { phase := some (utf16 "failed"), error := some (message.take 500) })
  else pure ()

/-- `if (needsRecovery) await resume(original)`. -/
def resumeIfNeeded : Js Unit := do
  let vars ← get
  if vars.needsRecovery then resumeOriginal else pure ()

/-- Whether the services are back, their recovery tried again if it has not ended. -/
def recoverServices : Js Bool :=
  tryCatch (do resumeIfNeeded; pure true) fun
    | .error _ => pure false
    | .exit => throw .exit

/-- The `finally` clause. -/
def release : Js Unit := do
  let vars ← get
  if vars.locked then do
    let recovered ← recoverServices
    if recovered then patchLease { holderIdentity := none } else pure ()
  else pure ()

/-- The `try` clause. -/
def body (setup : Setup) (owner : PodName) (mode : Mode) : Js Unit := do
  let lease ← getLease
  match mode with
    | .recover => recover lease
    | .backup => backup setup owner lease

/-- The script; `process.exit` runs neither clause. -/
def main (setup : Setup) (owner : PodName) (mode : Mode) : Js Unit := do
  tryCatch (body setup owner mode) fun
    | .error message => failed message
    | .exit => throw .exit
  release

/-- A pod's run. -/
def program (setup : Setup) (owner : PodName) (mode : Mode) :
    Script Call Call.Ret (Except Stop Unit × Variables) :=
  (main setup owner mode).script ⟨none, false, false⟩

end CartyxInfra.Backup
