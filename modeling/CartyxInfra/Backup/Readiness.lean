/-
What a backup has read of its source when its `tar` starts.

The readiness of the source is checked before the Lease is taken. Once both
reconcilers are idle the run reads the source again, for the manifest, and
checks nothing of it. In the runs in which every Helm reconcile that ends in
between leaves the release Ready and the databases up, the source is Ready in
that second read, and the manifest names the images and keyspaces found there.
-/
import CartyxInfra.Backup.Calls
import CartyxInfra.Backup.Protocol

namespace CartyxInfra.Backup

open JString

variable {p q : PodName} {w w' : World} {c : Component} {α : Type}

/-! ## What is read -/

/-- What was read of a component's workload. -/
def Snapshot.workload (s : Snapshot) : Component → Option Workload
  | .janusgraph => s.graph
  | .cassandra => s.cassandra

/-- `env.find(e => e.name === name)?.value`. -/
def Container.lookup (container : Container) (name : JString) : Option JString :=
  ((container.env.getD []).find? fun e => e.1 == name).map (·.2)

/-- The source was Ready when it was read, and the manifest is of what was read. -/
structure Attested (manifest : Manifest) (graph cassandra : Workload) (helm : Release) : Prop where
  ready : helm.is .ready = true
  available : graph.availableReplicas = some 1
  cassandraReady : cassandra.readyReplicas = some 1
  janusgraphImage : manifest.janusgraphImage = graph.container.image
  cassandraImage : manifest.cassandraImage = cassandra.container.image
  graphKeyspace : manifest.graphKeyspace = graph.container.lookup (utf16 "GRAPH_KEYSPACE")
  stateKeyspace : manifest.stateKeyspace = cassandra.container.lookup (utf16 "STATE_KEYSPACE")

/-- A run's last answers attest a manifest. -/
def AttestedBy (manifest : Manifest) (read : Snapshot) : Prop :=
  ∃ graph cassandra helm, read.graph = some graph ∧ read.cassandra = some cassandra ∧ read.helm = some helm ∧
    Attested manifest graph cassandra helm

/-! ## The runs looked at -/

/-- Helm's controller is at work. -/
def Reconciling (w : World) : Prop := (w.release .helm).is .reconciling = true

instance : Decidable (Reconciling w) := inferInstanceAs (Decidable (_ = _))

/-- One run among the reconcilers: only a Helm reconcile makes a database's
replicas differ from what is wanted of it. -/
def reconciled (p : PodName) (w : World) : Move PodName Call Choice Env → Bool
  | .act q _ _ => q == p
  | .env (.report c ready available) =>
    (w.release .helm).is .reconciling ||
      (ready.getD 0 == (w.workload c).replicas && available.getD 0 == (w.workload c).replicas)
  | .env _ => true

/-- Whether a database the run has read serves. -/
def World.serves (w : World) (p : PodName) (c : Component) : Bool :=
  ((w.observed p).workload c).isNone || c.serving (w.workload c) == some 1

/-- A Helm reconcile that ends once the run has read the release, and before
the run's scale-down, leaves the release Ready; and the databases it has read
serve then. -/
def upgradesHold (p : PodName) (w : World) : Move PodName Call Choice Env → Bool
  | .env (.finish .helm conditions revision history) =>
    (w.scaled p).isSome || (((w.observed p).helm.isNone ||
      { w.release .helm with conditions, lastAppliedRevision := revision, history }.is .ready) &&
        w.serves p .janusgraph && w.serves p .cassandra)
  | _ => true

/-- Both: the controllers report in time, and upgrades hold. -/
def orderly (p : PodName) (w : World) (move : Move PodName Call Choice Env) : Bool :=
  reconciled p w move && upgradesHold p w move

/-! ## Steps as the run sees them -/

/-- What the run looks at is as it was. -/
structure SameView (p : PodName) (w w' : World) : Prop where
  life : w'.life p = w.life p
  scaled : w'.scaled p = w.scaled p
  observed : w'.observed p = w.observed p
  workload : w'.workload = w.workload
  release : w'.release = w.release

/-- What the reconcilers can do to the source. -/
structure Drift (p : PodName) (w w' : World) : Prop where
  life : w'.life p = w.life p
  scaled : w'.scaled p = w.scaled p
  observed : w'.observed p = w.observed p
  replicas : ∀ c, (w'.workload c).replicas = (w.workload c).replicas
  suspend : (w'.release .helm).suspend = (w.release .helm).suspend
  container : ¬ Reconciling w → ∀ c, (w'.workload c).container = (w.workload c).container
  serving : ¬ Reconciling w → ∀ c, c.serving (w'.workload c) = c.serving (w.workload c) ∨
    (c.serving (w'.workload c)).getD 0 = (w.workload c).replicas
  /-- Helm stays idle, or begins a reconcile. -/
  idle : ¬ Reconciling w →
    w'.release .helm = w.release .helm ∨ (w.release .helm).suspend = false ∧ Reconciling w'
  /-- A reconcile ends. -/
  ends : Reconciling w → ¬ Reconciling w' → w.scaled p = none →
    ((w.observed p).helm.isSome → (w'.release .helm).is .ready = true) ∧
      ∀ c, ((w.observed p).workload c).isSome → c.serving (w'.workload c) = some 1

theorem SameView.drift (h : SameView p w w') : Drift p w w' where
  life := h.life
  scaled := h.scaled
  observed := h.observed
  replicas c := by rw [h.workload]
  suspend := by rw [h.release]
  container _ c := by rw [h.workload]
  serving _ c := .inl (by rw [h.workload])
  idle _ := .inl (by rw [h.release])
  ends hr hn _ := absurd (by rw [Reconciling, h.release]; exact hr) hn

/-- The kinds of calls that leave what the run looks at alone. -/
def unseen : List Kind := [.read, .lease, .status, .exitTar, .startTar, .put, .delete]

theorem perform_sameView {c : Call} {choice : Choice} {r : c.Ret} (hc : c.kind ∈ unseen)
    (h : perform p c choice w = some (r, w')) : SameView p w w' := by
  rcases perform_cases h with rfl | rfl
  · exact ⟨rfl, rfl, rfl, rfl, rfl⟩
  · cases c with
    | getWorkload | getRelease | patchScale | patchSuspend => simp [Call.kind, unseen] at hc
    | _ => exact ⟨rfl, rfl, rfl, rfl, rfl⟩

theorem setWorkload_container {workload : Workload} (h : workload.container = (w.workload c).container)
    (k : Component) :
    ((w.setWorkload c workload).workload k).container = (w.workload k).container := by
  by_cases hk : k = c
  · subst hk
    simpa [World.setWorkload] using h
  · simp [World.setWorkload, hk]

theorem env_drift {e : Env} (h : env e w = some w') (ho : orderly p w (.env e) = true) : Drift p w w' := by
  have hu := env_unchanged h
  have hlife : w'.life p = w.life p := by rw [hu.life]
  have hscaled : w'.scaled p = w.scaled p := by rw [hu.scaled]
  cases e with
  | tick | cancel | podCount =>
    cases h
    exact SameView.drift ⟨rfl, rfl, rfl, rfl, rfl⟩
  | report k ready available =>
    cases h
    refine ⟨hlife, hscaled, rfl, hu.services.replicas, rfl, fun _ => setWorkload_container rfl,
      fun hn j => ?_,
      fun _ => .inl rfl, fun hr hn => absurd hr hn⟩
    by_cases hj : j = k
    · subst hj
      have hb : (w.release .helm).is .reconciling = false := by simpa [Reconciling] using hn
      simp only [orderly, reconciled, upgradesHold, hb, Bool.false_or, Bool.and_true, Bool.and_eq_true,
        beq_iff_eq] at ho
      refine .inr ?_
      cases j with
      | janusgraph => simpa [World.setWorkload, Component.serving] using ho.2
      | cassandra => simpa [World.setWorkload, Component.serving] using ho.1
    · exact .inl (by simp [World.setWorkload, hj])
  | begin r conditions =>
    simp only [env, Option.ite_none_right_eq_some, Option.some.injEq, Bool.and_eq_true,
      Bool.not_eq_true'] at h
    obtain ⟨⟨⟨hs, hr⟩, hr'⟩, rfl⟩ := h
    refine ⟨hlife, hscaled, rfl, fun _ => rfl, hu.services.suspend .helm, fun _ _ => rfl, fun _ _ => .inl rfl,
      fun _ => ?_, fun hrec hn => ?_⟩
    · cases r with
      | helm => exact .inr ⟨hs, by simpa [Reconciling, World.setRelease] using hr'⟩
      | flux => exact .inl (by simp [World.setRelease])
    · cases r with
      | helm => exact absurd hrec (by simp [Reconciling, hr])
      | flux => exact absurd hrec (by simpa [Reconciling, World.setRelease] using hn)
  | upgrade k container =>
    simp only [env, Option.ite_none_right_eq_some, Option.some.injEq] at h
    obtain ⟨hr, rfl⟩ := h
    exact ⟨hlife, hscaled, rfl, hu.services.replicas, rfl, fun hn => absurd hr hn, fun hn => absurd hr hn,
      fun _ => .inl rfl, fun _ hn => absurd hr hn⟩
  | finish r conditions revision history =>
    simp only [env, Option.ite_none_right_eq_some, Option.some.injEq, Bool.and_eq_true,
      Bool.not_eq_true'] at h
    obtain ⟨⟨hr, hr'⟩, rfl⟩ := h
    refine ⟨hlife, hscaled, rfl, fun _ => rfl, hu.services.suspend .helm, fun _ _ => rfl, fun _ _ => .inl rfl,
      fun hn => ?_, fun hrec hn hs => ?_⟩
    · cases r with
      | helm => exact absurd hr hn
      | flux => exact .inl (by simp [World.setRelease])
    · cases r with
      | flux => exact absurd hrec (by simpa [Reconciling, World.setRelease] using hn)
      | helm =>
        simp only [orderly, reconciled, upgradesHold, hs, Option.isSome_none, Bool.false_or, Bool.true_and,
          Bool.and_eq_true, Bool.or_eq_true, World.serves, beq_iff_eq, Option.isNone_iff_eq_none] at ho
        obtain ⟨⟨hh, hg⟩, hc⟩ := ho
        refine ⟨fun ho => ?_, fun k hk => ?_⟩
        · have := hh.resolve_left fun hnone => by simp [hnone] at ho
          simpa [World.setRelease] using this
        · cases k with
          | janusgraph => exact hg.resolve_left fun hnone => by simp [hnone] at hk
          | cassandra => exact hc.resolve_left fun hnone => by simp [hnone] at hk

/-! ## The protocol -/

/-- The others leave what the run looks at alone, and its `tar` starts with a
source that was read as Ready and has not changed since. -/
def attestation (p : PodName) : Protocol PodName Call World where
  inv w := w.life p = .unborn → w.scaled p = none
  guarantee q w w' := q ≠ p → SameView p w w'
  pending q c w := q = p → ∀ recovery, c = .startTar recovery →
    AttestedBy recovery.manifest (w.observed p) ∧
      ∀ k workload, (w.observed p).workload k = some workload → (w.workload k).container = workload.container

/-- A program that keeps to the protocol, with what it needs and leaves. -/
abbrev Attests (p : PodName) (A : World → Prop) (m : Js α) (Q : α → World → Prop) : Prop :=
  Triple (attestation p) machine (orderly p) p (fun _ => A) m (fun a _ => Q a) fun _ _ w => w.life p ≠ .unborn

/-- An assertion about a live run that the others and the reconcilers leave. -/
structure Lasting (p : PodName) (A : World → Prop) : Prop where
  drift : ∀ w w', Drift p w w' → A w → A w'
  alive : ∀ w, A w → w.life p ≠ .unborn

theorem Lasting.stable {A : World → Prop} (h : Lasting p A) :
    (attestation p).Stable machine (orderly p) p A := by
  rintro w w' ⟨-, -, ⟨q, hq, hg⟩ | ⟨e, he, ho⟩⟩ ha
  · exact h.drift w w' (hg hq).drift ha
  · exact h.drift w w' (env_drift he ho) ha

theorem lasting_alive : Lasting p fun w => w.life p ≠ .unborn :=
  ⟨fun w w' hd ha => by rw [hd.life]; exact ha, fun _ ha => ha⟩

/-- Calls that do not start `tar` and keep the assertion. -/
theorem Attests.calls {kinds : List Kind} (hk : Kind.startTar ∉ kinds) {m : Js α} (hm : Makes kinds false m)
    {A : World → Prop} (hA : Lasting p A)
    (h : ∀ c choice w r w', c.kind ∈ kinds → A w → perform p c choice w = some (r, w') → A w') :
    Attests p A m fun _ => A := by
  refine Triple.conseq (Triple.calls hm (fun _ => hA.stable) (fun _ _ _ _ h => h) ?_) (fun _ _ _ h => h)
    (fun _ _ _ h => h) fun _ _ w ha => hA.alive w ha
  refine fun c s w hc hw ha => ⟨fun _ recovery he => ?_, fun choice r w' hr _ => ?_⟩
  · subst he
    exact absurd hc hk
  · have ha' := h c choice w r w' hc ha hr
    exact ⟨fun hl => absurd hl (hA.alive w' ha'), fun hq => absurd rfl hq, ha'⟩

/-- The kinds of calls that keep every lasting assertion. -/
def blind : List Kind := [.read, .lease, .status, .exitTar, .put, .delete]

theorem Attests.blind {m : Js α} (hm : Makes blind false m) {A : World → Prop} (hA : Lasting p A) :
    Attests p A m fun _ => A := by
  refine Attests.calls (by decide) hm hA fun c choice w r w' hc ha hr => hA.drift w w' (SameView.drift ?_) ha
  refine perform_sameView ?_ hr
  simp only [Backup.blind, unseen, List.mem_cons, List.not_mem_nil, or_false] at hc ⊢
  tauto

/-- Once `tar` has started, or where it never does. -/
theorem Attests.rest {m : Js α}
    (hm : Makes [.read, .observe, .lease, .scale, .suspend, .status, .exitTar, .put, .delete] false m) :
    Attests p (fun w => w.life p ≠ .unborn) m fun _ w => w.life p ≠ .unborn :=
  Attests.calls (by decide) hm lasting_alive fun _ _ _ _ _ _ ha hr => by rw [perform_life hr]; exact ha

/-- A call whose effect leads from one assertion to the next. -/
theorem Attests.call {β : Type} {c : Call} {next : c.Ret → Js β} {A : World → Prop} {Q : β → World → Prop}
    (hc : ∀ recovery, c ≠ .startTar recovery) (hA : Lasting p A)
    (h : ∀ choice w r w', A w → perform p c choice w = some (r, w') →
      (∃ b, next r = pure b ∧ Q b w') ∨ ∃ message, next r = fail message) :
    Attests p A (Program.make c >>= next) Q := by
  refine triple_call (fun _ => hA.stable) fun s w hw ha => ⟨fun _ recovery he => absurd he (hc recovery),
    fun choice r w' hr _ => ?_⟩
  have hl : w'.life p ≠ .unborn := by
    rw [perform_life hr]
    exact hA.alive w ha
  exact ⟨fun hu => absurd hu hl, fun hq => absurd rfl hq,
    (h choice w r w' ha hr).imp id fun ⟨message, hn⟩ => ⟨message, hn, hl⟩⟩

theorem attests_getWorkload {A : World → Prop} {Q : Workload → World → Prop} (hA : Lasting p A)
    (h : ∀ w, A w → Q (w.workload c) (w.observe p ((w.observed p).setWorkload (w.workload c) c))) :
    Attests p A (getWorkload c) Q := by
  refine Attests.call nofun hA fun choice w r w' ha hr => ?_
  simp only [perform, Choice.observe, Fallible.reply, Option.some.injEq, Prod.mk.injEq] at hr
  obtain ⟨rfl, rfl⟩ := hr
  split
  · next he => exact .inl ⟨_, rfl, by simpa [he] using h w ha⟩
  · next message _ => exact .inr ⟨message, rfl⟩

theorem attests_getRelease {k : Reconciler} {A : World → Prop} {Q : Release → World → Prop} (hA : Lasting p A)
    (h : ∀ w, A w → Q (w.release k) (w.observe p ((w.observed p).setRelease (w.release k) k))) :
    Attests p A (getRelease k) Q := by
  refine Attests.call nofun hA fun choice w r w' ha hr => ?_
  simp only [perform, Choice.observe, Fallible.reply, Option.some.injEq, Prod.mk.injEq] at hr
  obtain ⟨rfl, rfl⟩ := hr
  split
  · next he => exact .inl ⟨_, rfl, by simpa [he] using h w ha⟩
  · next message _ => exact .inr ⟨message, rfl⟩

theorem Attests.write {c : Call} {next : c.Ret → Js Unit} {A B : World → Prop} (hc : Writes c next)
    (ht : ∀ recovery, c ≠ .startTar recovery) (hA : Lasting p A)
    (h : ∀ w choice, A w → B (effect p c choice w)) : Attests p A (Program.make c >>= next) fun _ => B := by
  refine Attests.call ht hA fun choice w r w' ha hr => ?_
  rcases hc p choice w r w' hr with ⟨-, -, rfl, hn | hn⟩ | ⟨-, hn⟩
  · exact .inl ⟨(), hn, h w choice ha⟩
  · exact .inr hn
  · exact .inr hn

/-! ## Reading -/

section

variable {snapshot : Snapshot} {workload : Workload} {release : Release} {k : Component}

@[simp] theorem observe_observed : (w.observe p snapshot).observed p = snapshot := by simp [World.observe]

@[simp] theorem setWorkload_workload :
    (snapshot.setWorkload workload c).workload k = if k = c then some workload else snapshot.workload k := by
  cases c <;> cases k <;> simp [Snapshot.setWorkload, Snapshot.workload]

@[simp] theorem setWorkload_helm :
    (snapshot.setWorkload workload c).helm = snapshot.helm := by cases c <;> rfl

@[simp] theorem setRelease_workload {r : Reconciler} :
    (snapshot.setRelease release r).workload k = snapshot.workload k := by cases r <;> cases k <;> rfl

end

/-- Before the scale-down. -/
def Before (p : PodName) (w : World) : Prop := w.life p ≠ .unborn ∧ w.scaled p = none

/-- A database that was read serves, unless Helm reconciles. -/
structure Serves (p : PodName) (c : Component) (w : World) : Prop where
  observed : ((w.observed p).workload c).isSome
  replicas : (w.workload c).replicas = 1
  serving : ¬ Reconciling w → c.serving (w.workload c) = some 1

/-- The release that was read is Ready, unless Helm reconciles. -/
structure HelmReady (p : PodName) (w : World) : Prop where
  observed : (w.observed p).helm.isSome
  ready : ¬ Reconciling w → (w.release .helm).is .ready = true

theorem Before.drift (hd : Drift p w w') (h : Before p w) : Before p w' :=
  ⟨by rw [hd.life]; exact h.1, by rw [hd.scaled]; exact h.2⟩

theorem Serves.drift (hd : Drift p w w') (hb : Before p w) (h : Serves p c w) : Serves p c w' := by
  refine ⟨by rw [hd.observed]; exact h.observed, (hd.replicas c).trans h.replicas, fun hn => ?_⟩
  by_cases hr : Reconciling w
  · exact (hd.ends hr hn hb.2).2 c h.observed
  · rcases hd.serving hr c with he | he
    · rw [he]
      exact h.serving hr
    · rw [h.replicas] at he
      cases hs : c.serving (w'.workload c) with
      | none => simp [hs] at he
      | some n => simpa [hs] using he

theorem HelmReady.drift (hd : Drift p w w') (hb : Before p w) (h : HelmReady p w) : HelmReady p w' := by
  refine ⟨by rw [hd.observed]; exact h.observed, fun hn => ?_⟩
  by_cases hr : Reconciling w
  · exact (hd.ends hr hn hb.2).1 h.observed
  · rcases hd.idle hr with he | ⟨-, hr'⟩
    · rw [he]
      exact h.ready hr
    · exact absurd hr' hn

theorem Serves.observe {snapshot : Snapshot} (h : Serves p c w)
    (hs : ((w.observed p).workload c).isSome → (snapshot.workload c).isSome) :
      Serves p c (w.observe p snapshot) :=
  ⟨by simpa using hs h.observed, h.replicas, h.serving⟩

theorem HelmReady.observe {snapshot : Snapshot} (h : HelmReady p w)
    (hs : (w.observed p).helm.isSome → snapshot.helm.isSome) : HelmReady p (w.observe p snapshot) :=
  ⟨by simpa using hs h.observed, h.ready⟩

/-! ## The first read -/

/-- What the answers so far say: a source that was read as serving and Ready
is so still, unless Helm reconciles. -/
structure Known (p : PodName) (read : Snapshot) (w : World) : Prop where
  before : Before p w
  workload : ∀ c workload, read.workload c = some workload → workload.replicas = 1 →
    c.serving workload = some 1 → Serves p c w
  helm : ∀ helm, read.helm = some helm → helm.is .reconciling = false → helm.is .ready = true → HelmReady p w

/-- The source is Ready, unless Helm reconciles. -/
structure Steady (p : PodName) (w : World) : Prop where
  before : Before p w
  serving : ∀ c, Serves p c w
  helm : HelmReady p w

theorem lasting_before : Lasting p (Before p) := ⟨fun _ _ hd h => h.drift hd, fun _ h => h.1⟩

theorem lasting_known {read : Snapshot} : Lasting p (Known p read) where
  drift _ _ hd h := ⟨h.before.drift hd,
    fun c workload he hr hs => (h.workload c workload he hr hs).drift hd h.before,
    fun helm he hr hs => (h.helm helm he hr hs).drift hd h.before⟩
  alive _ h := h.before.1

theorem lasting_steady : Lasting p (Steady p) where
  drift _ _ hd h := ⟨h.before.drift hd, fun c => (h.serving c).drift hd h.before, h.helm.drift hd h.before⟩
  alive _ h := h.before.1

theorem Known.observeWorkload {read : Snapshot} (h : Known p read w) :
    Known p (read.setWorkload (w.workload c) c)
      (w.observe p ((w.observed p).setWorkload (w.workload c) c)) := by
  refine ⟨h.before, fun k workload he hr hs => ?_, fun helm he hr hs => ?_⟩
  · rw [setWorkload_workload] at he
    split at he
    · next hk =>
      subst hk
      obtain rfl : w.workload k = workload := by simpa using he
      exact ⟨by simp, hr, fun _ => hs⟩
    · next hk => exact (h.workload k workload he hr hs).observe fun ho => by simpa [hk] using ho
  · rw [setWorkload_helm] at he
    exact (h.helm helm he hr hs).observe fun ho => by simpa using ho

theorem Known.observeRelease {read : Snapshot} {k : Reconciler} (h : Known p read w) :
    Known p (read.setRelease (w.release k) k) (w.observe p ((w.observed p).setRelease (w.release k) k)) := by
  refine ⟨h.before, fun c workload he hr hs => ?_, fun helm he hr hs => ?_⟩
  · rw [setRelease_workload] at he
    exact (h.workload c workload he hr hs).observe fun ho => by simpa using ho
  · cases k with
    | helm =>
      obtain rfl : w.release .helm = helm := by simpa [Snapshot.setRelease] using he
      exact ⟨by simp [Snapshot.setRelease], fun _ => hs⟩
    | flux => exact (h.helm helm he hr hs).observe fun ho => ho

theorem Steady.observe {snapshot : Snapshot} (h : Steady p w)
    (hs : ∀ c, ((w.observed p).workload c).isSome → (snapshot.workload c).isSome)
    (hh : (w.observed p).helm.isSome → snapshot.helm.isSome) : Steady p (w.observe p snapshot) :=
  ⟨h.before, fun c => (h.serving c).observe (hs c), h.helm.observe hh⟩

/-- A read of one of the objects, whatever it keeps of what was read. -/
theorem attests_read {A : Snapshot → World → Prop} (hA : ∀ read, Lasting p (A read))
    (hw : ∀ read w c, A read w →
      A (read.setWorkload (w.workload c) c) (w.observe p ((w.observed p).setWorkload (w.workload c) c)))
    (hr : ∀ read w k, A read w →
      A (read.setRelease (w.release k) k) (w.observe p ((w.observed p).setRelease (w.release k) k)))
    (read : Snapshot) (path : Path) : Attests p (A read) (read.read path) A := by
  have workload : ∀ c, Attests p (A read) (getWorkload c) fun workload => A (read.setWorkload workload c) :=
    fun c => attests_getWorkload (hA read) fun w h => hw read w c h
  have release : ∀ k, Attests p (A read) (getRelease k) fun release => A (read.setRelease release k) :=
    fun k => attests_getRelease (hA read) fun w h => hr read w k h
  match path with
  | .workload .janusgraph => exact Triple.bind (workload .janusgraph) fun _ => Triple.pure _ fun _ _ h => h
  | .workload .cassandra => exact Triple.bind (workload .cassandra) fun _ => Triple.pure _ fun _ _ h => h
  | .release .helm => exact Triple.bind (release .helm) fun _ => Triple.pure _ fun _ _ h => h
  | .release .flux => exact Triple.bind (release .flux) fun _ => Triple.pure _ fun _ _ h => h

theorem attests_readAll {A : Snapshot → World → Prop} (hA : ∀ read, Lasting p (A read))
    (hread : ∀ read path, Attests p (A read) (read.read path) A) {paths : List Path} :
    Attests p (A {}) (readAll paths) A := by
  refine Triple.bind (Attests.blind (makes_make ?_) (hA {})) fun order => ?_
  · show Kind.read ∈ blind
    decide
  · exact Triple.foldlM (I := fun read _ w => A read w) hread order {}

theorem attests_preflight : Attests p (Before p) preflight fun _ => Steady p := by
  have hread : Attests p (Before p)
    (readAll [.workload .janusgraph, .workload .cassandra, .release .helm, .release .flux])
      (Known p) := by
    refine Triple.pre (attests_readAll (fun _ => lasting_known) (attests_read (fun _ => lasting_known)
      (fun _ _ _ h => h.observeWorkload) fun _ _ _ h => h.observeRelease)) fun s w h => ⟨h, ?_, nofun⟩
    intro c workload he
    cases c <;> cases he
  refine Triple.bind hread fun read => ?_
  split
  · next graph cassandra helm flux =>
    refine Triple.bind (Triple.throwIf fun s w h => h.before.1) fun _ => ?_
    refine Triple.bind (Triple.throwIf fun s w h => h.1.before.1) fun _ => ?_
    refine Triple.post (Triple.throwIf fun s w h => h.1.1.before.1) fun _ s w ⟨⟨⟨hk, h₁⟩, h₂⟩, h₃⟩ => ?_
    simp only [Bool.or_eq_false_iff, bne_eq_false_iff_eq, Bool.not_eq_false'] at h₁ h₃
    refine ⟨hk.before, fun c => ?_, hk.helm helm rfl h₂ h₃.1.1⟩
    cases c with
    | janusgraph => exact hk.workload .janusgraph graph rfl h₁.1.1.1 h₃.1.2
    | cassandra => exact hk.workload .cassandra cassandra rfl h₁.1.1.2 h₃.2
  · exact Triple.throw _ fun s w h => h.before.1

end CartyxInfra.Backup
