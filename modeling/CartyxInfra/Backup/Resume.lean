/-
What `resume` waits for before it gives the cluster back to its reconcilers.

The counts in a workload's status are of the pods as they were when its
controller has last reported, which may be before the scale patches. `resume`
takes a status for current, and two statuses read one after the other for one
moment's. `resume_recovered` says in which runs that goes well; the order of
its calls holds in all of them.
-/
import CartyxInfra.Backup.Calls

namespace CartyxInfra.Backup

open JString

variable {original : Original} {p q : PodName} {α : Type}

/-! ## The cluster and the pods in it -/

/-- The pods that are ready, whatever is reported of them. -/
@[ext] structure Pods where
  cassandra : Nat
  janusgraph : Nat
  deriving DecidableEq

/-- The pods of a component. -/
def Pods.of (pods : Pods) : Component → Nat
  | .cassandra => pods.cassandra
  | .janusgraph => pods.janusgraph

/-- The cluster with its pods and the runs in it, and a record of them. -/
structure Site where
  world : World
  now : Nat
  /-- The pods at each moment up to now. -/
  ready : Nat → Pods
  /-- The moment a workload's status is of, if it was reported in the time recorded. -/
  reported : Component → Option Nat
  /-- A run's calls so far, and which of them succeeded. -/
  log : PodName → List (Call × Bool)
  /-- The moment at which both scale patches of a run had succeeded. -/
  since : PodName → Option Nat
  /-- The moment of which Cassandra's status was that a run has read last. -/
  read : PodName → Option Nat

/-- Whether a call succeeds, by what it returns. -/
def Call.ok : (c : Call) → c.Ret → Bool
  | .getLease, r => r.isOk
  | .getPod _, r => r.isOk
  | .getWorkload _, r => r.isOk
  | .getRelease _, r => r.isOk
  | .getPods _, r => r.isOk
  | .getConfig, r => r.isOk
  | .exitTar, r => r.isOk
  | .getObject _, r => r.isOk
  | .listObjects .., r => r.isOk
  | .patchLease _, r | .patchScale .., r | .patchSuspend .., r | .patchStatus _, r | .files, r
  | .putObject .., r | .deleteObject _, r => r.isOk
  | .now, _ | .cancelled, _ | .arrival _, _ | .startTar _, _ => true

/-- A scale patch of the component that has succeeded. -/
def scaledTo (component : Component) : Call × Bool → Bool
  | (.patchScale component' _, ok) => component' == component && ok
  | _ => false

/-- A read of Cassandra's status that has succeeded. -/
def readsCassandra : Call × Bool → Bool
  | (.getWorkload .cassandra, ok) => ok
  | _ => false

/-- A call is made, which leaves a world. -/
def Site.call (site : Site) (p : PodName) (c : Call) (ok : Bool) (world : World) : Site :=
  let log := site.log p ++ [(c, ok)]
  let both := log.any (scaledTo .cassandra) && log.any (scaledTo .janusgraph)
  { site with
    world
    log := Function.update site.log p log
    since :=
      if both && (site.since p).isNone then Function.update site.since p (some site.now) else site.since
    read :=
      if readsCassandra (c, ok) then Function.update site.read p (site.reported .cassandra)
      else site.read }

/-- The pods that are ready change. -/
def Site.become (site : Site) (ready : Pods) : Site :=
  { site with now := site.now + 1, ready := Function.update site.ready (site.now + 1) ready }

/-- What moves at a site by itself: the cluster's objects, and the pods. -/
inductive SiteEnv
  | cluster (e : Env)
  | pods (ready : Pods)

/-- A status is reported of the pods as they are. -/
def Site.env : SiteEnv → Site → Option Site
  | .cluster (.report c ready available), site =>
    let world := site.world.setWorkload c
      { site.world.workload c with readyReplicas := ready, availableReplicas := available }
    if (c.serving (world.workload c)).getD 0 = (site.ready site.now).of c then
      some { site with world, reported := Function.update site.reported c (some site.now) }
    else none
  | .cluster e, site => (Backup.env e site.world).map fun world => { site with world }
  | .pods ready, site => some (site.become ready)

/-- Runs at a site, with a record of each. -/
def siteMachine : Machine PodName Call Call.Ret Site Choice SiteEnv where
  perform p c choice site := (perform p c choice site.world).map fun out =>
    (out.1, site.call p c (c.ok out.1) out.2)
  start p site := (start p site.world).map fun world =>
    { site with
      world
      log := Function.update site.log p []
      since := Function.update site.since p none
      read := Function.update site.read p none }
  stop p site := { site with world := stop p site.world }
  env := Site.env

/-- Recoveries alone. -/
def resumption (original : Original) (_ : PodName) (_ : Unit) :
    Script Call Call.Ret (Except Stop Unit × Variables) :=
  (resume original).script ⟨some original, true, true⟩

/-! ## What is claimed of it -/

/-- The counts `recovered` looks for. -/
def Original.met (original : Original) (cassandra graph : Workload) : Bool :=
  cassandra.readyReplicas.getD 0 == original.cassandra && graph.availableReplicas.getD 0 == original.graph

/-- The pods that the replica counts ask for. -/
def Original.pods (original : Original) : Pods := ⟨original.cassandra, original.graph⟩

/-- Whether the database reported first has as many pods ready when the other is reported. -/
def Site.steady (site : Site) (cassandra graph : Nat) : Bool :=
  if cassandra ≤ graph then (site.ready graph).cassandra == (site.ready cassandra).cassandra
  else (site.ready cassandra).janusgraph == (site.ready graph).janusgraph

/-- Whether the statuses a run polls, Cassandra's read and JanusGraph's about
to be, were both reported since its scale patches had succeeded, with the
database reported first as it was. -/
def Site.current (site : Site) (p : PodName) : Bool :=
  match site.since p, site.read p, site.reported .janusgraph with
  | some since, some cassandra, some graph =>
    decide (since ≤ cassandra) && decide (since ≤ graph) && site.steady cassandra graph
  | _, _, _ => false

/-- No poll finds the counts it looks for in statuses that are not current. -/
def timely (original : Original) (site : Site) : Move PodName Call Choice SiteEnv → Bool
  | .act p (.getWorkload .janusgraph) choice =>
    match (site.world.observed p).cassandra with
    | some cassandra =>
      choice.error.isSome || !original.met cassandra (site.world.workload .janusgraph) || site.current p
    | none => true
  | _ => true

/-- Both databases had their original pods ready at a moment since the scale
patches of a run. -/
def Site.Recovered (site : Site) (original : Original) (p : PodName) : Prop :=
  ∃ since t, site.since p = some since ∧ since ≤ t ∧ t ≤ site.now ∧ site.ready t = original.pods

/-- The writes of `resume`, in its order. -/
def order (original : Original) : List Call :=
  [.patchScale .cassandra original.cassandra, .patchScale .janusgraph original.graph,
    .patchSuspend .helm original.helm, .patchSuspend .flux original.flux]

/-- A call by which a run could change the release or a workload. -/
def Call.write : Call → Bool
  | .patchScale .. | .patchSuspend .. => true
  | _ => false

/-- The writes of a run so far. -/
def writes (log : List (Call × Bool)) : List Call := (log.map (·.1)).filter Call.write

/-- What holds of a run of `resume` that is about to make a call; with
`current`, in a run whose statuses are timely. -/
structure Issued (original : Original) (current : Bool) (p : PodName) (c : Call) (site : Site) : Prop where
  /-- No call before this one failed. -/
  succeeded : ∀ done ∈ site.log p, done.2 = true
  /-- The writes are made in order, none of them left out. -/
  order : c.write = true → writes (site.log p) ++ [c] <+: order original
  /-- The wait ended with both databases reported. -/
  waited : ∀ b, c = .patchSuspend .helm b → ∃ cassandra graph,
    (site.world.observed p).cassandra = some cassandra ∧ (site.world.observed p).graph = some graph ∧
      original.met cassandra graph = true
  recovered : current = true → ∀ b, c = .patchSuspend .helm b → site.Recovered original p

/-- The runs looked at: all, or those whose statuses are timely. -/
def reported (original : Original) (current : Bool) (site : Site)
    (move : Move PodName Call Choice SiteEnv) : Bool :=
  !current || timely original site move

/-! ## The statuses -/

/-- A status of a recorded moment tells of the pods there were. -/
def Told (site : Site) : Prop :=
  ∀ c t, site.reported c = some t →
    t ≤ site.now ∧ (c.serving (site.world.workload c)).getD 0 = (site.ready t).of c

/-- The workloads' statuses are the same. -/
def SameServing (w w' : World) : Prop := ∀ c : Component, c.serving (w'.workload c) = c.serving (w.workload c)

theorem sameServing_setWorkload {w : World} {c : Component} (workload : Workload)
    (h : c.serving workload = c.serving (w.workload c)) : SameServing w (w.setWorkload c workload) := by
  intro c'
  by_cases hc : c' = c
  · subst hc
    simpa [World.setWorkload] using h
  · simp [World.setWorkload, hc]

theorem effect_serving {c : Call} {choice : Choice} {w : World} : SameServing w (effect p c choice w) := by
  cases c with
  | patchScale component replicas =>
    refine sameServing_setWorkload { w.workload component with replicas := replicas } ?_
    cases component <;> rfl
  | _ => exact fun _ => rfl

theorem perform_serving {c : Call} {choice : Choice} {r : c.Ret} {w w' : World}
    (h : perform p c choice w = some (r, w')) : SameServing w w' := by
  rcases perform_cases h with rfl | rfl
  · exact fun _ => rfl
  · exact effect_serving

theorem Told.same {site : Site} {w : World} (h : Told site) (hw : SameServing site.world w) :
    Told { site with world := w } := by
  intro c t ht
  obtain ⟨hnow, hserving⟩ := h c t ht
  refine ⟨hnow, ?_⟩
  show (c.serving (w.workload c)).getD 0 = _
  rw [hw c]
  exact hserving

theorem Told.become {site : Site} {ready : Pods} (h : Told site) : Told (site.become ready) := by
  intro c t ht
  obtain ⟨hnow, hserving⟩ := h c t ht
  have hne : t ≠ site.now + 1 := by omega
  refine ⟨Nat.le_succ_of_le hnow, hserving.trans ?_⟩
  simp [Site.become, hne]

/-- A site is reported to, changes its pods, or changes what no status tells of. -/
theorem siteEnv_cases {e : SiteEnv} {site site' : Site} (h : Site.env e site = some site') :
    (∃ c workload, (c.serving workload).getD 0 = (site.ready site.now).of c ∧
      site' = { site with
        world := site.world.setWorkload c workload
        reported := Function.update site.reported c (some site.now) }) ∨
    (∃ w, SameServing site.world w ∧ w.observed = site.world.observed ∧ site' = { site with world := w }) ∨
    ∃ ready, site' = site.become ready := by
  cases e with
  | pods ready =>
    cases h
    exact .inr (.inr ⟨ready, rfl⟩)
  | cluster e =>
    cases e with
    | report c ready available =>
      simp only [Site.env, Option.ite_none_right_eq_some, Option.some.injEq] at h
      obtain ⟨hserving, rfl⟩ := h
      refine .inl ⟨c, _, ?_, rfl⟩
      simpa [World.setWorkload] using hserving
    | tick | cancel | podCount =>
      simp only [Site.env, Backup.env, Option.map_some, Option.some.injEq] at h
      subst h
      refine .inr (.inl ⟨_, ?_, ?_, rfl⟩)
      · exact fun _ => rfl
      · rfl
    | begin | finish =>
      obtain ⟨w, hw, rfl⟩ := Option.map_eq_some_iff.mp h
      refine .inr (.inl ⟨w, ?_, env_observed hw, rfl⟩)
      simp only [env] at hw
      split at hw
      · cases hw
        exact fun _ => rfl
      · cases hw
    | upgrade c container =>
      obtain ⟨w, hw, rfl⟩ := Option.map_eq_some_iff.mp h
      refine .inr (.inl ⟨w, ?_, env_observed hw, rfl⟩)
      simp only [env] at hw
      split at hw
      · cases hw
        refine sameServing_setWorkload { site.world.workload c with container := container } ?_
        cases c <;> rfl
      · cases hw

theorem Told.env {e : SiteEnv} {site site' : Site} (h : Told site) (he : Site.env e site = some site') :
    Told site' := by
  rcases siteEnv_cases he with ⟨c, workload, hserving, rfl⟩ | ⟨w, hw, -, rfl⟩ | ⟨ready, rfl⟩
  · intro c' t ht
    by_cases hc : c' = c
    · subst hc
      obtain rfl : site.now = t := by simpa using ht
      exact ⟨le_rfl, by simpa [World.setWorkload] using hserving⟩
    · simp only [Function.update_of_ne hc] at ht
      simpa [World.setWorkload, hc] using h c' t ht
  · exact h.same hw
  · exact h.become

/-! ## A run's record -/

/-- What the others leave of a run's record. -/
structure Recorded (p : PodName) (site site' : Site) : Prop where
  log : site'.log p = site.log p
  observed : site'.world.observed p = site.world.observed p
  since : site'.since p = site.since p
  read : site'.read p = site.read p
  now : site.now ≤ site'.now
  ready : ∀ t ≤ site.now, site'.ready t = site.ready t

def recording (original : Original) (current : Bool) : Protocol PodName Call Site where
  inv := Told
  guarantee q site site' := ∀ p, p ≠ q → Recorded p site site'
  pending := Issued original current

theorem call_recorded {c : Call} {ok : Bool} {w : World} {site : Site} (hq : p ≠ q)
    (ho : w.observed p = site.world.observed p) : Recorded p site (site.call q c ok w) := by
  refine ⟨Function.update_of_ne hq .., ho, ?_, ?_, le_rfl, fun _ _ => rfl⟩
  · simp only [Site.call]
    split
    · exact Function.update_of_ne hq ..
    · rfl
  · simp only [Site.call]
    split
    · exact Function.update_of_ne hq ..
    · rfl

theorem siteEnv_recorded {e : SiteEnv} {site site' : Site} (h : siteMachine.env e site = some site') :
    Recorded p site site' := by
  rcases siteEnv_cases h with ⟨c, workload, -, rfl⟩ | ⟨w, -, hw, rfl⟩ | ⟨ready, rfl⟩
  · exact ⟨rfl, rfl, rfl, rfl, le_rfl, fun _ _ => rfl⟩
  · exact ⟨rfl, congrFun hw p, rfl, rfl, le_rfl, fun _ _ => rfl⟩
  · refine ⟨rfl, rfl, rfl, rfl, Nat.le_succ _, fun t ht => ?_⟩
    have hne : t ≠ site.now + 1 := by omega
    simp [Site.become, hne]

theorem Recorded.recovered {site site' : Site} (h : Recorded p site site') (hr : site.Recovered original p) :
    site'.Recovered original p := by
  obtain ⟨since, t, hs, hle, hnow, hready⟩ := hr
  exact ⟨since, t, by rw [h.since, hs], hle, hnow.trans h.now, by rw [h.ready t hnow, hready]⟩

/-- An assertion about a run's record. -/
def OfRecord (p : PodName) (A : Site → Prop) : Prop := ∀ site site', Recorded p site site' → A site → A site'

theorem OfRecord.stable {current : Bool} {A : Site → Prop} (hA : OfRecord p A) :
    (recording original current).Stable siteMachine (reported original current) p A := by
  rintro site site' ⟨-, -, ⟨q, hq, hg⟩ | ⟨e, he, -⟩⟩ ha
  · exact hA site site' (hg p (Ne.symm hq)) ha
  · exact hA site site' (siteEnv_recorded he) ha

/-! ## The writes and the wait -/

/-- Every call so far has succeeded, these writes among them. -/
structure Done (ws : List Call) (p : PodName) (site : Site) : Prop where
  succeeded : ∀ done ∈ site.log p, done.2 = true
  writes : writes (site.log p) = ws

section

variable {ws : List Call} {c : Call} {site site' : Site} {w : World} {current : Bool}

theorem ofRecord_done : OfRecord p (Done ws p) :=
  fun _ _ hr h => ⟨by rw [hr.log]; exact h.succeeded, by rw [hr.log]; exact h.writes⟩

theorem Done.call (h : Done ws p site) : Done (ws ++ [c].filter Call.write) p (site.call p c true w) := by
  have hlog : (site.call p c true w).log p = site.log p ++ [(c, true)] := Function.update_self ..
  refine ⟨?_, ?_⟩
  · rw [hlog]
    simpa using h.succeeded
  · rw [hlog, CartyxInfra.Backup.writes, List.map_append, List.filter_append]
    exact congrArg (· ++ _) h.writes

theorem Done.read (h : Done ws p site) (hc : c.write = false) : Done ws p (site.call p c true w) := by
  have hcall := h.call (c := c) (w := w)
  simpa [hc] using hcall

theorem call_recovered {ok : Bool} (h : site.Recovered original p) :
    (site.call p c ok w).Recovered original p := by
  obtain ⟨since, t, hs, hrest⟩ := h
  refine ⟨since, t, ?_, hrest⟩
  simp only [Site.call, hs, Option.isNone_some, Bool.and_false]
  exact hs

theorem Told.call {ok : Bool} (h : Told site) (hw : SameServing site.world w) : Told (site.call p c ok w) :=
  h.same hw

/-- Statuses that are current and of the original counts have a moment in common. -/
theorem recovered_of_current {cassandra : Workload} (h : site.current p = true) (hsite : Told site)
    (hread : ∀ t, site.read p = some t →
      t ≤ site.now ∧ cassandra.readyReplicas.getD 0 = (site.ready t).cassandra)
    (hm : original.met cassandra (site.world.workload .janusgraph) = true) : site.Recovered original p := by
  unfold Site.current at h
  split at h
  · next since tc tg hs hc hg =>
    simp only [Bool.and_eq_true, decide_eq_true_eq] at h
    obtain ⟨⟨hsc, hsg⟩, hsteady⟩ := h
    obtain ⟨hcnow, hcassandra⟩ := hread tc hc
    obtain ⟨hgnow, hgraph⟩ := hsite .janusgraph tg hg
    have hmet : cassandra.readyReplicas.getD 0 = original.cassandra ∧
        (site.world.workload .janusgraph).availableReplicas.getD 0 = original.graph := by
      simpa [Original.met] using hm
    have horiginalC : (site.ready tc).cassandra = original.cassandra := hcassandra.symm.trans hmet.1
    have horiginalG : (site.ready tg).janusgraph = original.graph := hgraph.symm.trans hmet.2
    -- the later of the two reports is the moment: what was reported first is still so
    unfold Site.steady at hsteady
    split at hsteady
    · have hstill : (site.ready tg).cassandra = (site.ready tc).cassandra := by simpa using hsteady
      exact ⟨since, tg, hs, hsg, hgnow, Pods.ext (hstill.trans horiginalC) horiginalG⟩
    · have hstill : (site.ready tc).janusgraph = (site.ready tg).janusgraph := by simpa using hsteady
      exact ⟨since, tc, hs, hsc, hcnow, Pods.ext horiginalC (hstill.trans horiginalG)⟩
  · cases h

/-- A call of the run that returns or throws, when it is due. -/
theorem records_call {next : c.Ret → Js α} {A : Site → Prop} {B : α → Site → Prop} (hA : OfRecord p A)
    (hp : ∀ site, A site → Issued original current p c site)
    (h : ∀ site choice r w, Told site → A site → reported original current site (.act p c choice) = true →
      perform p c choice site.world = some (r, w) →
      (∃ a, next r = pure a ∧ B a (site.call p c (c.ok r) w)) ∨ ∃ message, next r = fail message) :
    Triple (recording original current) siteMachine (reported original current) p (fun _ => A)
      (Program.make c >>= next) (fun a _ => B a) fun _ _ _ => True := by
  refine Triple.answer (fun _ => hA.stable) fun s site hsite ha => ⟨hp site ha, fun choice r site' hr hal => ?_⟩
  obtain ⟨⟨r, w⟩, hw, he⟩ := Option.map_eq_some_iff.mp hr
  cases he
  refine ⟨hsite.call (perform_serving hw), fun q hq => call_recorded hq (perform_observed hq hw), ?_⟩
  rcases h site choice r w hsite ha hal hw with hn | ⟨message, hn⟩
  · exact .inl hn
  · exact .inr ⟨message, hn, trivial⟩

theorem issued_of_done (h : Done ws p site) (hc : c.write = true → ws ++ [c] <+: order original)
    (hhelm : ∀ b, c ≠ .patchSuspend .helm b) : Issued original current p c site where
  succeeded := h.succeeded
  order hw := by rw [h.writes]; exact hc hw
  waited b hb := absurd hb (hhelm b)
  recovered _ b hb := absurd hb (hhelm b)

theorem await_ok {r : Reply α} {a : α} (h : (await r : Js α) = pure a) : r = .ok a := by
  have hs := congrArg (fun m : Js α => m.script ⟨none, false, false⟩) h
  cases r with
  | ok b =>
    cases hs
    rfl
  | error message => cases hs

/-- The next write in the order. -/
theorem records_write {A : Site → Prop} {next : c.Ret → Js Unit} (hA : OfRecord p A) (hw : Writes c next)
    (hc : c.write = true) (hok : ∀ r, next r = pure () → c.ok r = true)
    (hdone : ∀ site, A site → Done ws p site) (hp : ∀ site, A site → Issued original current p c site) :
    Triple (recording original current) siteMachine (reported original current) p (fun _ => A)
      (Program.make c >>= next) (fun _ _ => Done (ws ++ [c]) p) fun _ _ _ => True := by
  refine records_call hA hp fun site choice r w _ ha _ hr => ?_
  have hnext : next r = pure () ∨ ∃ message, next r = fail message := by
    rcases hw p choice site.world r w hr with ⟨-, -, -, hn⟩ | ⟨-, hn⟩
    · exact hn
    · exact .inr hn
  refine hnext.imp_left fun hn => ⟨(), hn, ?_⟩
  have hcall := (hdone site ha).call (c := c) (w := w)
  rw [hok r hn]
  simpa [hc] using hcall

theorem records_patchScale {component : Component} {replicas : Nat}
    (hc : ws ++ [.patchScale component replicas] <+: order original) :
    Triple (recording original current) siteMachine (reported original current) p (fun _ => Done ws p)
      (patchScale component replicas) (fun _ _ => Done (ws ++ [.patchScale component replicas]) p)
      fun _ _ _ => True :=
  records_write ofRecord_done writes_patchScale rfl (fun _ hn => by rw [await_ok hn]; rfl) (fun _ h => h)
    fun _ h => issued_of_done h (fun _ => hc) nofun

theorem records_now :
    Triple (recording original current) siteMachine (reported original current) p (fun _ => Done ws p)
      now (fun _ _ => Done ws p) fun _ _ _ => True := by
  refine Triple.make (fun _ => ofRecord_done.stable) fun s site hsite hd =>
    ⟨issued_of_done hd nofun nofun, fun choice r site' hr _ => ?_⟩
  cases hr
  exact ⟨hsite.call fun _ => rfl, fun q hq => call_recorded hq rfl, hd.read rfl⟩

/-- Cassandra's status has been read, of the pods there were. -/
structure ReadCassandra (ws : List Call) (p : PodName) (workload : Workload) (site : Site) : Prop
    extends Done ws p site where
  cassandra : (site.world.observed p).cassandra = some workload
  told : ∀ t, site.read p = some t →
    t ≤ site.now ∧ workload.readyReplicas.getD 0 = (site.ready t).cassandra

/-- Both statuses have been read, of the counts that were looked for. -/
structure Waited (original : Original) (current : Bool) (ws : List Call) (p : PodName) (site : Site) : Prop
    extends Done ws p site where
  waited : ∃ cassandra graph, (site.world.observed p).cassandra = some cassandra ∧
    (site.world.observed p).graph = some graph ∧ original.met cassandra graph = true
  recovered : current = true → site.Recovered original p

theorem ofRecord_readCassandra {cassandra : Workload} : OfRecord p (ReadCassandra ws p cassandra) := by
  refine fun site site' hr h =>
    ⟨ofRecord_done _ _ hr h.toDone, by rw [hr.observed]; exact h.cassandra, fun t ht => ?_⟩
  obtain ⟨hnow, htold⟩ := h.told t (by rw [← hr.read]; exact ht)
  exact ⟨hnow.trans hr.now, by rw [hr.ready t hnow]; exact htold⟩

theorem ofRecord_waited : OfRecord p (Waited original current ws p) :=
  fun _ _ hr h => ⟨ofRecord_done _ _ hr h.toDone, by rw [hr.observed]; exact h.waited,
    fun hc => hr.recovered (h.recovered hc)⟩

theorem records_getCassandra :
    Triple (recording original current) siteMachine (reported original current) p (fun _ => Done ws p)
      (getWorkload .cassandra) (fun cassandra _ => ReadCassandra ws p cassandra) fun _ _ _ => True := by
  refine records_call ofRecord_done
    (fun _ h => issued_of_done h nofun nofun) fun site choice r w hsite hd _ hr => ?_
  simp only [perform, Choice.observe, Option.some.injEq, Prod.mk.injEq] at hr
  obtain ⟨rfl, rfl⟩ := hr
  cases he : choice.error with
  | some message => exact .inr ⟨message, by rw [Fallible.reply, he]; rfl⟩
  | none =>
    refine .inl ⟨site.world.workload .cassandra, by rw [Fallible.reply_ok he]; rfl, ?_⟩
    rw [Fallible.reply_ok he]
    refine ⟨hd.read rfl, by simp [Site.call, World.observe, Snapshot.setWorkload], fun t ht => ?_⟩
    have hread : site.reported .cassandra = some t := by
      simpa [Site.call, readsCassandra, Call.ok, Except.isOk, Except.toBool] using ht
    exact hsite .cassandra t hread

theorem records_getGraph {cassandra : Workload} :
    Triple (recording original current) siteMachine (reported original current) p
      (fun _ => ReadCassandra ws p cassandra) (getWorkload .janusgraph)
      (fun graph _ site => Done ws p site ∧ (original.met cassandra graph = true →
        Waited original current ws p site)) fun _ _ _ => True := by
  refine records_call (B := fun graph site => Done ws p site ∧ (original.met cassandra graph = true →
      Waited original current ws p site)) ofRecord_readCassandra
    (fun _ h => issued_of_done h.toDone nofun nofun) fun site choice r w hsite hd hal hr => ?_
  simp only [perform, Choice.observe, Option.some.injEq, Prod.mk.injEq] at hr
  obtain ⟨rfl, rfl⟩ := hr
  cases he : choice.error with
  | some message => exact .inr ⟨message, by rw [Fallible.reply, he]; rfl⟩
  | none =>
    refine .inl ⟨site.world.workload .janusgraph, by rw [Fallible.reply_ok he]; rfl, ?_⟩
    rw [Fallible.reply_ok he]
    refine ⟨hd.toDone.read rfl, fun hm => ⟨hd.toDone.read rfl, ?_, fun hc => call_recovered ?_⟩⟩
    · refine ⟨cassandra, site.world.workload .janusgraph, ?_, ?_, hm⟩
      · simpa [Site.call, World.observe, Snapshot.setWorkload] using hd.cassandra
      · simp [Site.call, World.observe, Snapshot.setWorkload]
    · have hcurrent : site.current p = true := by
        simpa [reported, hc, timely, hd.cassandra, he, hm] using hal
      exact recovered_of_current hcurrent hsite hd.told hm

/-- A poll that ends the wait has found both counts. -/
theorem records_recovered :
    Triple (recording original current) siteMachine (reported original current) p (fun _ => Done ws p)
      (recovered original)
      (fun done _ site => Done ws p site ∧ (done = true → Waited original current ws p site))
      fun _ _ _ => True :=
  Triple.bind records_getCassandra fun _ => Triple.bind records_getGraph fun _ =>
    Triple.pure _ fun _ _ h => h

/-- **The step through `resume`**: each of its calls is due when it is made. -/
theorem records_resume :
    Triple (recording original current) siteMachine (reported original current) p (fun _ => Done [] p)
      (resume original) (fun _ _ => Done (order original) p) fun _ _ _ => True := by
  refine Triple.bind (records_patchScale (by simp [order])) fun _ => ?_
  refine Triple.bind (records_patchScale (by simp [order])) fun _ => ?_
  refine Triple.bind (triple_waitUntil (B := fun _ => Waited original current _ p) records_now
    records_recovered fun _ _ _ _ => trivial) fun _ => ?_
  refine Triple.bind (records_write ofRecord_waited writes_patchSuspend rfl
    (fun _ hn => by rw [await_ok hn]; rfl) (fun _ h => h.toDone) fun site h => ?_) fun _ => ?_
  · refine ⟨h.succeeded, fun _ => ?_, fun _ _ => h.waited, fun hc _ _ => h.recovered hc⟩
    rw [h.writes]
    simp [order]
  · exact records_write ofRecord_done writes_patchSuspend rfl (fun _ hn => by rw [await_ok hn]; rfl)
      (fun _ h => h) fun _ h => issued_of_done h (fun _ => List.prefix_rfl) nofun

end

/-! ## Pools -/

theorem recording_environment {current : Bool} :
    (recording original current).Environment siteMachine (reported original current) (resumption original)
      fun _ _ _ => True where
  start p _ site site' hsite h := by
    obtain ⟨w, hw, rfl⟩ := Option.map_eq_some_iff.mp h
    obtain ⟨-, rfl⟩ := start_eq hw
    refine ⟨hsite, fun q hq => ⟨Function.update_of_ne hq .., rfl, Function.update_of_ne hq ..,
      Function.update_of_ne hq .., le_rfl, fun _ _ => rfl⟩,
      records_resume.script hsite ⟨?_, ?_⟩ fun _ _ _ => trivial⟩
    · simp
    · simp [writes]
  stop p _ hsite := ⟨hsite, fun _ _ => ⟨rfl, rfl, rfl, rfl, le_rfl, fun _ _ => rfl⟩⟩
  env _ _ _ hsite h _ := hsite.env h
  stable _ _ := .const

variable {site : Site} {s : Pool PodName Call Call.Ret Site (Except Stop Unit × Variables)} {c : Call}
  {next : c.Ret → Script Call Call.Ret (Except Stop Unit × Variables)}

/-- No status is of a recorded moment yet. -/
def Unrecorded (site : Site) : Prop := ∀ c, site.reported c = none

theorem Unrecorded.told (h : Unrecorded site) : Told site := fun c t ht => by simp [h c] at ht

/-- The order of the calls, in every run: one that fails is the last, and so
is a wait that times out. -/
theorem resume_issued {current : Bool} (hsite : Unrecorded site)
    (h : Reachable siteMachine (resumption original) (reported original current) site s)
    (hp : s.procs p = some (.call c next)) : Issued original current p c s.world :=
  (Protocol.sound recording_environment hsite.told h).pending hp

/-- Flux is only resumed when Helm has been. -/
theorem Issued.helm {current b : Bool} (h : Issued original current p (.patchSuspend .flux b) site) :
    (.patchSuspend .helm original.helm, true) ∈ site.log p := by
  have hmem : .patchSuspend .helm original.helm ∈ writes (site.log p) := by
    obtain ⟨rest, hrest⟩ := h.order rfl
    generalize writes (site.log p) = ws at hrest
    match ws, hrest with
    | [], hrest | [_], hrest | [_, _], hrest => simp [Backup.order] at hrest
    | [_, _, helm], hrest =>
      simp only [Backup.order, List.cons_append, List.nil_append, List.cons.injEq] at hrest
      simp [hrest.2.2.1]
    | _ :: _ :: _ :: _ :: ws, hrest => simp [Backup.order] at hrest
  obtain ⟨done, hdone, hcall⟩ := List.mem_map.mp (List.mem_of_mem_filter hmem)
  have hok := h.succeeded done hdone
  rwa [← hcall, ← hok]

/-- **Recovery.** In every run whose polled statuses are current: Helm is resumed
only after a moment since the scale patches at which both databases had their
original pods ready, and Flux only after Helm; the calls are made in order,
and nothing follows one that fails. -/
theorem resume_recovered (hsite : Unrecorded site)
    (h : Reachable siteMachine (resumption original) (timely original) site s)
    (hp : s.procs p = some (.call c next)) :
    Issued original true p c s.world ∧
      ∀ b, c = .patchSuspend .flux b → (.patchSuspend .helm original.helm, true) ∈ s.world.log p := by
  have hall : timely original = reported original true := by
    funext site move
    simp [reported]
  have hissued : Issued original true p c s.world := resume_issued hsite (hall ▸ h) hp
  refine ⟨hissued, fun b hb => ?_⟩
  subst hb
  exact hissued.helm

/-- Both databases ready, before anything is recorded. -/
def serving : Site := ⟨atRest, 0, fun _ => ⟨1, 1⟩, fun _ => none, fun _ => [], fun _ => none, fun _ => none⟩

theorem serving_unrecorded : Unrecorded serving := fun _ => rfl

/-- A run of `resume` none of whose calls fail, up to its wait's end, when both
databases' pods are gone. -/
def toWaited (events : List (Event PodName Unit Choice SiteEnv)) : List (Event PodName Unit Choice SiteEnv) :=
  [.env (.pods ⟨0, 0⟩), .start first (), .act first {}, .act first {}] ++ events ++
    [.act first {}, .act first {}, .act first {}]

/-- The databases come back, and their controllers report it. -/
def comeBack : List (Event PodName Unit Choice SiteEnv) :=
  [.env (.pods ⟨1, 0⟩), .env (.cluster (.report .cassandra (some 1) none)), .env (.pods ⟨1, 1⟩),
    .env (.cluster (.report .janusgraph (some 1) (some 1)))]

def Call.resumesHelm : Call → Bool
  | .patchSuspend .helm _ => true
  | _ => false

theorem resumesHelm_iff {script : Option (Script Call Call.Ret (Except Stop Unit × Variables))} :
    waitsFor Call.resumesHelm script = true ↔
      ∃ b next, script = some (.call (.patchSuspend .helm b) next) := by
  rw [waitsFor_iff]
  constructor
  · rintro ⟨c, next, rfl, hc⟩
    unfold Call.resumesHelm at hc
    split at hc
    · exact ⟨_, next, rfl⟩
    · cases hc
  · rintro ⟨b, next, rfl⟩
    exact ⟨_, next, rfl, rfl⟩

theorem resume_recovered_sample :
    ∃ s, Pool.run siteMachine (resumption Backup.original) (timely Backup.original) ⟨serving, fun _ => none⟩
      (toWaited comeBack) = some s ∧ waitsFor Call.resumesHelm (s.procs first) = true ∧
      s.world.Recovered Backup.original first := by
  have hrun : ((Pool.run siteMachine (resumption Backup.original) (timely Backup.original)
      ⟨serving, fun _ => none⟩ (toWaited comeBack)).map fun s =>
        waitsFor Call.resumesHelm (s.procs first)) = some true := by decide +kernel
  obtain ⟨s, hs, hw⟩ := Option.map_eq_some_iff.mp hrun
  obtain ⟨b, next, hp⟩ := resumesHelm_iff.mp hw
  exact ⟨s, hs, hw, (resume_recovered serving_unrecorded (Pool.run_sound hs) hp).1.recovered rfl b rfl⟩

/-- Statuses from before the scale patches end the wait. -/
theorem resume_unrecovered : ¬ ∀ (original : Original) (p : PodName) (site : Site)
    (s : Pool PodName Call Call.Ret Site (Except Stop Unit × Variables)) (b : Bool)
    (next : Reply Unit → Script Call Call.Ret (Except Stop Unit × Variables)), Unrecorded site →
    Reachable siteMachine (resumption original) always site s →
    s.procs p = some (.call (.patchSuspend .helm b) next) → s.world.Recovered original p := by
  intro h
  have hrun : ((Pool.run siteMachine (resumption Backup.original) always ⟨serving, fun _ => none⟩
      (toWaited [])).map fun s =>
        (waitsFor Call.resumesHelm (s.procs first), s.world.since first, s.world.now,
          s.world.ready 1)) = some (true, some 1, 1, ⟨0, 0⟩) := by decide +kernel
  obtain ⟨s, hs, hw⟩ := Option.map_eq_some_iff.mp hrun
  simp only [Prod.mk.injEq] at hw
  obtain ⟨hwaits, hsince, hnow, hgone⟩ := hw
  obtain ⟨b, next, hp⟩ := resumesHelm_iff.mp hwaits
  obtain ⟨since, t, hs', hle, hle', hready⟩ :=
    h Backup.original first serving s b next serving_unrecorded (Pool.run_sound hs) hp
  obtain rfl : 1 = since := Option.some.inj (hsince.symm.trans hs')
  obtain rfl : t = 1 := by omega
  rw [hgone] at hready
  exact absurd hready (by decide)

end CartyxInfra.Backup
