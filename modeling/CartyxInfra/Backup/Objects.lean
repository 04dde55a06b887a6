/-
The objects a backup works on: the Kubernetes objects it reads and patches,
and the bucket it publishes to, as far as the backup scripts look at them.

Texts are JavaScript strings, times are `Date` milliseconds.
-/
import CartyxInfra.Lib.JString

namespace CartyxInfra.Backup

open JString

/-- The content of a file or an object. -/
abbrev Bytes := List UInt8

/-- The namespaces `paths` accepts. -/
inductive Namespace
  | dev
  | prod
  deriving DecidableEq

/-- The namespace's name. -/
def Namespace.text : Namespace → JString
  | .dev => utf16 "dev"
  | .prod => utf16 "prod"

/-- A pod's name, which is never empty (`if (!owner) throw`). -/
structure PodName where
  text : JString
  nonempty : text ≠ []
  deriving DecidableEq

/-! ## Cluster objects -/

/-- The two databases. -/
inductive Component
  | janusgraph
  | cassandra
  deriving DecidableEq

/-- The two reconciled objects: the HelmRelease and the Flux Kustomization. -/
inductive Reconciler
  | helm
  | flux
  deriving DecidableEq

/-- A container of a pod template. -/
structure Container where
  image : JString
  env : Option (List (JString × JString))
  deriving DecidableEq

/-- A Deployment or a StatefulSet: `spec.replicas`,
`spec.template.spec.containers[0]`, and the counts in its status. -/
structure Workload where
  replicas : Nat
  container : Container
  readyReplicas : Option Nat
  availableReplicas : Option Nat
  deriving DecidableEq

/-- `type` of a condition, as far as the scripts tell types apart. -/
inductive ConditionType
  | reconciling
  | ready
  | other (name : JString)
  deriving DecidableEq

/-- `status` of a condition. -/
inductive ConditionStatus
  | true
  | false
  | unknown
  deriving DecidableEq

/-- An entry of `status.conditions`. -/
structure Condition where
  type : ConditionType
  status : ConditionStatus
  deriving DecidableEq

/-- A HelmRelease or a Kustomization. -/
structure Release where
  suspend : Bool
  conditions : List Condition
  lastAppliedRevision : Option JString
  /-- `status.history`, as the chart versions in it. -/
  history : List (Option JString)
  deriving DecidableEq

/-- `status?.conditions?.some(c => c.type === type && c.status === 'True')`. -/
def Release.is (r : Release) (type : ConditionType) : Bool :=
  r.conditions.any fun c => c.type == type && c.status == .true

/-- What the cluster was like before a backup, as the Lease's annotation
`backup.cartyx.io/original` has it. -/
structure Original where
  graph : Nat
  cassandra : Nat
  helm : Bool
  flux : Bool
  deriving DecidableEq

/-- The Lease; the annotation stands for its parsed text. -/
structure Lease where
  resourceVersion : Nat
  holderIdentity : Option PodName
  original : Option Original
  deriving DecidableEq

/-- A merge patch of the Lease, with its precondition. -/
structure LeasePatch where
  resourceVersion : Option Nat := none
  original : Option Original := none
  holderIdentity : Option PodName

/-- The Lease after a merge patch, as a new version. -/
def Lease.patch (lease : Lease) (patch : LeasePatch) : Lease where
  resourceVersion := lease.resourceVersion + 1
  holderIdentity := patch.holderIdentity
  original := patch.original.orElse fun _ => lease.original

/-- The data of the status ConfigMap, and of a merge patch of it. -/
structure Status where
  phase : Option JString := none
  lastAttempt : Option Int := none
  owner : Option PodName := none
  lastSuccess : Option Int := none
  key : Option JString := none
  sha256 : Option JString := none
  bytes : Option Nat := none
  error : Option JString := none
  deriving DecidableEq

/-- The ConfigMap's data after a merge patch: what the patch does not name stays. -/
def Status.patch (status data : Status) : Status where
  phase := data.phase.orElse fun _ => status.phase
  lastAttempt := data.lastAttempt.orElse fun _ => status.lastAttempt
  owner := data.owner.orElse fun _ => status.owner
  lastSuccess := data.lastSuccess.orElse fun _ => status.lastSuccess
  key := data.key.orElse fun _ => status.key
  sha256 := data.sha256.orElse fun _ => status.sha256
  bytes := data.bytes.orElse fun _ => status.bytes
  error := data.error.orElse fun _ => status.error

/-- What a status tells of the last success. -/
def Status.record (status : Status) : Option Int × Option JString × Option JString :=
  (status.lastSuccess, status.key, status.sha256)

/-- A patch that names no run and tells of no success. -/
def Status.Brief (data : Status) : Prop := data.owner = none ∧ data.record = (none, none, none)

theorem Status.Brief.patch {data : Status} (h : data.Brief) (status : Status) :
    (status.patch data).record = status.record ∧ (status.patch data).owner = status.owner := by
  obtain ⟨howner, hrecord⟩ := h
  simp only [record, Prod.mk.injEq] at hrecord
  obtain ⟨hsuccess, hkey, hsha⟩ := hrecord
  simp [record, Status.patch, howner, hsuccess, hkey, hsha]

/-- `status.phase` of a pod. -/
inductive Phase
  | pending
  | running
  | succeeded
  | failed
  | unknown
  deriving DecidableEq

/-- `['Running', 'Pending'].includes(phase)`. -/
def Phase.active : Phase → Bool
  | .running | .pending => true
  | _ => false

/-! ## The archive and the bucket -/

/-- What goes into the archive as `manifest.json`. -/
structure Manifest where
  environment : Namespace
  id : JString
  capturedAt : Int
  cassandraImage : JString
  janusgraphImage : JString
  chartRevision : Option JString
  graphKeyspace : Option JString
  stateKeyspace : Option JString
  deriving DecidableEq

/-- `format` and `method` of every manifest. -/
def Manifest.format : Nat := 2

/-- `method` of every manifest: the databases were stopped. -/
def Manifest.method : JString := utf16 "stopped-full-data-directory"

/-- What is published beside the archive. -/
structure Completion where
  manifest : Manifest
  sha256 : JString
  bytes : Nat
  key : JString
  deriving DecidableEq

/-- The content of an object in the bucket. -/
inductive Body
  | bytes (content : Bytes)
  | json (completion : Completion)
  deriving DecidableEq

/-- An object in the bucket. -/
structure Stored where
  key : JString
  lastModified : Int
  body : Body
  deriving DecidableEq

/-- The bucket's objects, in the order it lists them. -/
abbrev Bucket := List Stored

/-- The object under a key. -/
def Bucket.get (b : Bucket) (key : JString) : Option Body := (b.find? fun o => o.key == key).map (·.body)

/-- The bucket without the object under a key. -/
def Bucket.delete (b : Bucket) (key : JString) : Bucket := b.filter fun o => o.key != key

/-- A put replaces the object under its key, in the place the order gives the key. -/
def Bucket.put (b : Bucket) (o : Stored) : Bucket :=
  (b.delete o.key).takeWhile (fun x => x.key < o.key) ++
    o :: (b.delete o.key).dropWhile fun x => x.key < o.key

/-- An entry of a listing. -/
structure Entry where
  key : JString
  lastModified : Int
  deriving DecidableEq

/-- A page of a listing, and where the next one starts. -/
structure Page where
  contents : List Entry
  next : Option JString

/-- A page of the objects under a prefix: up to `size` of those after `token`. -/
def Bucket.page (b : Bucket) (pre : JString) (token : Option JString) (size : Nat) : Page :=
  let rest := b.filter fun o => pre.isPrefixOf o.key && token.all fun t => decide (t < o.key)
  let contents := (rest.take size).map fun o => ⟨o.key, o.lastModified⟩
  ⟨contents, if rest.length ≤ size then none else contents.getLast?.map (·.key)⟩

theorem Bucket.get_delete (b : Bucket) (key k : JString) :
    (b.delete key).get k = if k = key then none else b.get k := by
  unfold get delete
  rw [List.find?_filter]
  by_cases h : k = key
  · rw [if_pos h, Option.map_eq_none_iff, List.find?_eq_none]
    intro o _
    simp [h]
  · rw [if_neg h]
    congr 2
    funext o
    by_cases ho : o.key = k
    · simp [ho, h]
    · simp [ho]

theorem Bucket.get_put (b : Bucket) (o : Stored) (k : JString) :
    (b.put o).get k = if k = o.key then some o.body else b.get k := by
  have hdel := b.get_delete o.key k
  have hsplit := List.takeWhile_append_dropWhile (p := fun x : Stored => decide (x.key < o.key))
    (l := b.delete o.key)
  rw [← hsplit] at hdel
  unfold get put at *
  rw [List.find?_append] at hdel ⊢
  rw [List.find?_cons]
  by_cases h : k = o.key
  · rw [if_pos h, Option.map_eq_none_iff, Option.or_eq_none_iff] at hdel
    rw [hdel.1]
    simp [h]
  · have hk : (o.key == k) = false := by simpa using Ne.symm h
    rw [if_neg h] at hdel ⊢
    simp only [hk]
    exact hdel

theorem Bucket.mem_get {b : Bucket} {key : JString} {body : Body} (h : b.get key = some body) :
    ∃ o ∈ b, o.key = key := by
  obtain ⟨o, ho, -⟩ := Option.map_eq_some_iff.mp h
  exact ⟨o, List.mem_of_find?_eq_some ho, by simpa using List.find?_some ho⟩

theorem Bucket.mem_delete {b : Bucket} {key : JString} {o : Stored} (h : o ∈ b.delete key) : o ∈ b :=
  List.mem_of_mem_filter h

theorem Bucket.mem_put {b : Bucket} {o o' : Stored} (h : o' ∈ b.put o) : o' = o ∨ o' ∈ b := by
  simp only [put, List.mem_append, List.mem_cons] at h
  rcases h with h | rfl | h
  · exact .inr (mem_delete ((List.takeWhile_subset _) h))
  · exact .inl rfl
  · exact .inr (mem_delete ((List.dropWhile_subset _) h))

/-- A listing is of objects that are there, under the prefix. -/
theorem Bucket.mem_page {b : Bucket} {pre : JString} {token : Option JString} {size : Nat} {e : Entry}
    (h : e ∈ (b.page pre token size).contents) :
    ∃ o ∈ b, pre <+: o.key ∧ e = ⟨o.key, o.lastModified⟩ := by
  simp only [page, List.mem_map] at h
  obtain ⟨o, ho, rfl⟩ := h
  obtain ⟨hb, hp⟩ := List.mem_filter.mp (List.mem_of_mem_take ho)
  simp only [Bool.and_eq_true, List.isPrefixOf_iff_prefix] at hp
  exact ⟨o, hb, hp.1, rfl⟩

end CartyxInfra.Backup
