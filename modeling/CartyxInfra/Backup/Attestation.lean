/-
A backup from its suspensions to `tar`: the second read of the source, and the
manifest made of it.
-/
import CartyxInfra.Backup.Readiness

namespace CartyxInfra.Backup

open JString

variable {p : PodName} {w w' : World} {c : Component} {setup : Setup}

/-! ## Suspension -/

/-- Helm is suspended and idle, and then nothing but a run starts it again. -/
def HelmIdle (w : World) : Prop := (w.release .helm).suspend = true ∧ ¬ Reconciling w

theorem HelmIdle.drift (hd : Drift p w w') (h : HelmIdle w) :
    HelmIdle w' ∧ w'.release .helm = w.release .helm := by
  rcases hd.idle h.2 with he | ⟨hs, -⟩
  · exact ⟨⟨by rw [he]; exact h.1, by rw [Reconciling, he]; exact h.2⟩, he⟩
  · rw [h.1] at hs
    cases hs

theorem patchSuspend_is {r k : Reconciler} {b : Bool} {type : ConditionType} :
    ((w.patchSuspend r b).release k).is type = (w.release k).is type := by
  by_cases hk : k = r
  · subst hk
    simp [World.patchSuspend, World.setRelease, Release.is]
  · simp [World.patchSuspend, World.setRelease, hk]

theorem Steady.patchSuspend {r : Reconciler} {b : Bool} (h : Steady p w) : Steady p (w.patchSuspend r b) := by
  have hr : Reconciling (w.patchSuspend r b) ↔ Reconciling w := by simp only [Reconciling, patchSuspend_is]
  refine ⟨h.before, fun c => ⟨(h.serving c).observed, (h.serving c).replicas, fun hn => ?_⟩,
    h.helm.observed, fun hn => ?_⟩
  · exact (h.serving c).serving fun hrec => hn (hr.mpr hrec)
  · rw [patchSuspend_is]
    exact h.helm.ready fun hrec => hn (hr.mpr hrec)

/-! ## The second read -/

/-- What was read is what the source is. -/
structure Noted (p : PodName) (read : Snapshot) (w : World) : Prop where
  workload : ∀ c workload, read.workload c = some workload → (w.observed p).workload c = some workload ∧
    c.serving workload = some 1 ∧ (w.workload c).container = workload.container
  helm : ∀ helm, read.helm = some helm → (w.observed p).helm = some helm ∧ helm.is .ready = true

theorem Noted.drift {read : Snapshot} (hd : Drift p w w') (hi : HelmIdle w) (h : Noted p read w) :
    Noted p read w' := by
  refine ⟨fun c workload he => ?_, fun helm he => ?_⟩
  · obtain ⟨ho, hs, hc⟩ := h.workload c workload he
    exact ⟨by rw [hd.observed]; exact ho, hs, (hd.container hi.2 c).trans hc⟩
  · rw [hd.observed]
    exact h.helm helm he

/-- Both reconcilers are idle and the source is Ready, as far as it is read again. -/
structure Reread (p : PodName) (read : Snapshot) (w : World) : Prop where
  steady : Steady p w
  idle : HelmIdle w
  noted : Noted p read w

theorem lasting_reread {read : Snapshot} : Lasting p (Reread p read) where
  drift w w' hd h := ⟨lasting_steady.drift w w' hd h.steady, (h.idle.drift hd).1, h.noted.drift hd h.idle⟩
  alive _ h := h.steady.before.1

theorem Reread.observeWorkload {read : Snapshot} (h : Reread p read w) :
    Reread p (read.setWorkload (w.workload c) c)
      (w.observe p ((w.observed p).setWorkload (w.workload c) c)) := by
  refine ⟨h.steady.observe (fun k ho => ?_) (fun ho => by simpa using ho), h.idle, fun k workload he => ?_,
    fun helm he => ?_⟩
  · rw [setWorkload_workload]
    split
    · rfl
    · exact ho
  · rw [setWorkload_workload] at he
    rw [observe_observed, setWorkload_workload]
    split at he
    · next hk =>
      subst hk
      obtain rfl : w.workload k = workload := by simpa using he
      exact ⟨by simp, (h.steady.serving k).serving h.idle.2, rfl⟩
    · next hk =>
      rw [if_neg hk]
      exact h.noted.workload k workload he
  · rw [setWorkload_helm] at he
    rw [observe_observed, setWorkload_helm]
    exact h.noted.helm helm he

theorem Reread.observeRelease {read : Snapshot} {k : Reconciler} (h : Reread p read w) :
    Reread p (read.setRelease (w.release k) k) (w.observe p ((w.observed p).setRelease (w.release k) k)) := by
  refine ⟨h.steady.observe (fun c ho => by simpa using ho) ?_, h.idle, fun c workload he => ?_, ?_⟩
  · cases k with
    | helm => simp [Snapshot.setRelease]
    | flux => exact fun ho => ho
  · rw [setRelease_workload] at he
    rw [observe_observed, setRelease_workload]
    exact h.noted.workload c workload he
  · rw [observe_observed]
    cases k with
    | helm =>
      intro helm he
      obtain rfl : w.release .helm = helm := by simpa [Snapshot.setRelease] using he
      exact ⟨rfl, h.steady.helm.ready h.idle.2⟩
    | flux => exact h.noted.helm

theorem attests_poll {k : Reconciler} {A B : World → Prop} (hA : Lasting p A)
    (hobs : ∀ w, A w → A (w.observe p ((w.observed p).setRelease (w.release k) k)))
    (hB : ∀ w, A w → (w.release k).is .reconciling = false → B w)
    (hBobs : ∀ w, B w → B (w.observe p ((w.observed p).setRelease (w.release k) k))) {label : JString} :
    Attests p A (waitUntil (do return !(← getRelease k).is .reconciling) label 120) fun _ => B := by
  refine triple_waitUntil (Attests.blind (makes_now (by decide)) hA) ?_ fun _ _ w ha => hA.alive w ha
  refine Triple.bind (attests_getRelease
    (Q := fun release w => A w ∧ (release.is .reconciling = false → B w)) hA
    fun w ha => ⟨hobs w ha, fun hr => hBobs w (hB w ha hr)⟩) fun release =>
      Triple.pure _ fun s w h => ⟨h.1, ?_⟩
  intro hr
  exact h.2 (by simpa using hr)

theorem Steady.observeRelease {k : Reconciler} (h : Steady p w) :
    Steady p (w.observe p ((w.observed p).setRelease (w.release k) k)) := by
  refine h.observe (fun c ho => by simpa using ho) fun ho => ?_
  cases k with
  | helm => simp [Snapshot.setRelease]
  | flux => exact ho

theorem attests_suspend : Attests p (Steady p) suspend (Reread p) := by
  have hstop : Lasting p fun w => Steady p w ∧ (w.release .helm).suspend = true :=
    ⟨fun w w' hd h => ⟨lasting_steady.drift w w' hd h.1, hd.suspend.trans h.2⟩, fun _ h => h.1.before.1⟩
  refine Triple.bind (Attests.write (B := Steady p) writes_patchSuspend (by simp) lasting_steady
    fun w _ h => h.patchSuspend) fun _ => ?_
  refine Triple.bind (attests_poll (B := Steady p) lasting_steady (fun _ h => h.observeRelease)
    (fun _ h _ => h)
    fun _ h => h.observeRelease) fun _ => ?_
  refine Triple.bind (Attests.write
    (B := fun w => Steady p w ∧ (w.release .helm).suspend = true) writes_patchSuspend
    (by simp) lasting_steady fun w _ h => ⟨h.patchSuspend, ?_⟩) fun _ => ?_
  · simp [effect, World.patchSuspend, World.setRelease]
  refine Triple.bind (attests_poll (B := fun w => Steady p w ∧ HelmIdle w) hstop
    (fun _ h => ⟨h.1.observeRelease, h.2⟩) (fun _ h hr => ⟨h.1, h.2, by simp [Reconciling, hr]⟩)
    fun _ h => ⟨h.1.observeRelease, h.2⟩) fun _ => ?_
  refine Triple.bind (Triple.pre (attests_readAll (A := Reread p) (fun _ => lasting_reread)
    (attests_read (fun _ => lasting_reread) (fun _ _ _ h => h.observeWorkload)
      fun _ _ _ h => h.observeRelease))
    fun s w h => ⟨h.1, h.2, ?_, fun helm he => by cases he⟩) fun read => ?_
  · intro c workload he
    cases c <;> cases he
  · exact Triple.bind (Attests.blind (makes_checkpoint (by decide)) lasting_reread) fun _ =>
      Triple.pure _ fun _ _ h => h

/-! ## To `tar` -/

/-- The source is still as it was read. -/
structure Held (p : PodName) (read : Snapshot) (w : World) : Prop where
  alive : w.life p ≠ .unborn
  idle : HelmIdle w
  noted : Noted p read w

theorem lasting_held {read : Snapshot} : Lasting p (Held p read) where
  drift _ _ hd h := ⟨by rw [hd.life]; exact h.alive, (h.idle.drift hd).1, h.noted.drift hd h.idle⟩
  alive _ h := h.alive

theorem Held.patchScale {read : Snapshot} {n : Nat} (h : Held p read w) :
    Held p read (w.patchScale p c n) := by
  refine ⟨h.alive, h.idle, fun k workload he => ?_, h.noted.helm⟩
  obtain ⟨ho, hs, hc⟩ := h.noted.workload k workload he
  refine ⟨ho, hs, ?_⟩
  rw [← hc]
  exact setWorkload_container (rfl : ({ w.workload c with replicas := n } : Workload).container = _) k

theorem attests_scaleDown {read : Snapshot} {label : JString} :
    Attests p (Held p read) (scaleDown c label) fun _ => Held p read := by
  refine Triple.bind (Attests.write (B := Held p read) writes_patchScale nofun lasting_held
    fun w _ h => h.patchScale) fun _ => ?_
  exact Attests.blind ((makes_waitUntil (by decide) (makes_gone (by decide)) _ _).bind fun _ =>
    makes_checkpoint (by decide)) lasting_held

/-- The run's last answers attest the manifest, and the source is still as it was read. -/
structure Attesting (p : PodName) (manifest : Manifest) (w : World) : Prop where
  alive : w.life p ≠ .unborn
  idle : HelmIdle w
  attested : AttestedBy manifest (w.observed p)
  container : ∀ c workload, (w.observed p).workload c = some workload →
    (w.workload c).container = workload.container

theorem lasting_attesting {manifest : Manifest} : Lasting p (Attesting p manifest) where
  drift _ _ hd h := ⟨by rw [hd.life]; exact h.alive, (h.idle.drift hd).1,
    by rw [hd.observed]; exact h.attested,
    fun c workload he => (hd.container h.idle.2 c).trans
      (h.container c workload (by rw [← hd.observed]; exact he))⟩
  alive _ h := h.alive

theorem attests_value {A : World → Prop} (hA : Lasting p A) {container : Container} {name : JString} :
    Attests p A (container.value name) fun value w => A w ∧ value = container.lookup name := by
  unfold Container.value
  split
  · exact Triple.throw _ fun _ w ha => hA.alive w ha
  · next he => exact Triple.pure _ fun _ _ ha => ⟨ha, by simp [Container.lookup, he]⟩

theorem attests_manifest {read : Snapshot} :
    Attests p (Held p read) (manifest setup p read) (Attesting p) := by
  unfold manifest
  split
  · next graph cassandra helm flux =>
    refine Triple.bind (Attests.blind (makes_now (by decide)) lasting_held) fun capturedAt => ?_
    refine Triple.bind (attests_value lasting_held) fun graphKeyspace => ?_
    refine Triple.extract (c := graphKeyspace = graph.container.lookup (utf16 "GRAPH_KEYSPACE"))
      (fun _ _ h => h.2) fun hg => ?_
    refine Triple.bind (Triple.pre (attests_value lasting_held) fun _ _ h => h.1) fun stateKeyspace => ?_
    refine Triple.pure _ fun s w ⟨h, hs⟩ => ⟨h.alive, h.idle, ?_, fun c workload he => ?_⟩
    · obtain ⟨hog, hsg, -⟩ := h.noted.workload .janusgraph graph rfl
      obtain ⟨hoc, hsc, -⟩ := h.noted.workload .cassandra cassandra rfl
      obtain ⟨hoh, hr⟩ := h.noted.helm helm rfl
      exact ⟨graph, cassandra, helm, hog, hoc, hoh, hr, hsg, hsc, rfl, rfl, hg, hs⟩
    · cases c with
      | janusgraph =>
        obtain ⟨ho, -, hc⟩ := h.noted.workload .janusgraph graph rfl
        obtain rfl : graph = workload := by simpa [ho] using he
        exact hc
      | cassandra =>
        obtain ⟨ho, -, hc⟩ := h.noted.workload .cassandra cassandra rfl
        obtain rfl : cassandra = workload := by simpa [ho] using he
        exact hc
  · exact Triple.throw _ fun _ w h => h.alive

theorem attests_archive {read : Snapshot} :
    Attests p (Held p read) (archive setup p read) fun _ w => w.life p ≠ .unborn := by
  refine Triple.bind (Attests.blind (makes_patchStatus (by decide)) lasting_held) fun _ => ?_
  refine Triple.bind (Attests.blind (makes_files (by decide)) lasting_held) fun _ => ?_
  refine Triple.bind (Attests.blind (makes_call (by decide) .await) lasting_held) fun config => ?_
  refine Triple.bind attests_manifest fun manifest => ?_
  refine Triple.bind (Attests.blind (makes_files (by decide)) lasting_attesting) fun _ => ?_
  refine Triple.bind (Triple.make (Q := fun _ _ w => w.life p ≠ .unborn)
    (fun _ => lasting_attesting.stable) ?_)
    fun _ => ?_
  · refine fun s w hw h => ⟨fun _ recovery he => ?_, fun choice r w' hr _ => ?_⟩
    · cases he
      exact ⟨h.attested, h.container⟩
    · have hl : w'.life p ≠ .unborn := by
        have hlife : w'.life = w.life := @perform_life p _ choice w w' r hr
        rw [hlife]
        exact h.alive
      exact ⟨fun hu => absurd hu hl, fun hq => absurd rfl hq, hl⟩
  · exact Attests.rest ((makes_call (by decide) .await).bind fun content =>
      (makes_checkpoint (by decide)).bind fun _ => .pure _)

/-! ## Runs -/

theorem attests_backup {lease : Lease} :
    Attests p (Before p) (backup setup p lease) fun _ w => w.life p ≠ .unborn := by
  refine Triple.bind (Attests.blind (.throwIf _ _) lasting_before) fun _ => ?_
  refine Triple.bind attests_preflight fun _ => ?_
  refine Triple.bind (Attests.blind (makes_acquire (by decide)) lasting_steady) fun _ => ?_
  refine Triple.bind (Attests.blind (makes_now (by decide)) lasting_steady) fun lastAttempt => ?_
  refine Triple.bind (Attests.blind (makes_patchStatus (by decide)) lasting_steady) fun _ => ?_
  refine Triple.bind (Attests.blind makes_needsRecovery lasting_steady) fun _ => ?_
  refine Triple.bind attests_suspend fun read => ?_
  refine Triple.bind (Triple.pre attests_scaleDown fun s w h => ⟨h.steady.before.1, h.idle, h.noted⟩)
    fun _ => ?_
  refine Triple.bind attests_scaleDown fun _ => ?_
  refine Triple.bind attests_archive fun out => ?_
  refine Triple.bind (Attests.rest (makes_resumeOriginal ?_ ?_ ?_ ?_)) fun _ => ?_
  any_goals decide
  refine Triple.bind (Attests.rest makes_needsRecovery) fun _ => ?_
  refine Triple.bind (Attests.rest (makes_patchStatus (by decide))) fun _ => ?_
  refine Triple.bind (Attests.rest (makes_publish (by decide) (by decide))) fun completion => ?_
  refine Triple.bind (Attests.rest (makes_retireOldBackups (by decide) (by decide))) fun _ => ?_
  refine Triple.bind (Attests.rest (makes_now (by decide))) fun lastSuccess => ?_
  exact Attests.rest (makes_patchStatus (by decide))

theorem attests_main {mode : Mode} :
    Attests p (Before p) (main setup p mode) fun _ w => w.life p ≠ .unborn := by
  have hbody : Attests p (Before p) (body setup p mode) fun _ w => w.life p ≠ .unborn := by
    refine Triple.bind (Attests.blind (makes_call (by decide) .await) lasting_before) fun lease => ?_
    cases mode with
    | backup => exact attests_backup
    | recover =>
      refine Triple.pre (Attests.rest (makes_recover ?_ ?_ ?_ ?_ ?_ ?_)) fun s w h => h.1
      all_goals decide
  refine Triple.bind (Q := fun _ _ w => w.life p ≠ .unborn) (Triple.tryCatch hbody fun e => ?_) fun _ => ?_
  · cases e with
    | error => exact Attests.rest (makes_failed (by decide))
    | exit => exact Triple.throw _ fun _ _ h => h
  · refine Attests.rest (makes_release ?_ ?_ ?_ ?_ ?_)
    all_goals decide

theorem attestation_environment :
    (attestation p).Environment machine (orderly p) (program setup) fun _ _ _ => True where
  start q mode w w' hw h := by
    obtain ⟨hl, rfl⟩ := start_eq h
    have hview : ∀ {q}, q ≠ p → SameView p w { w with life := Function.update w.life q .live } :=
      fun hq => ⟨Function.update_of_ne (Ne.symm hq) .., rfl, rfl, rfl, rfl⟩
    by_cases hq : q = p
    · subst hq
      have hlive : (Function.update w.life q Life.live) q ≠ .unborn := by simp
      have hinv : (attestation q).inv { w with life := Function.update w.life q .live } := fun hu =>
        absurd hu hlive
      exact ⟨hinv, fun hne => absurd rfl hne, attests_main.script hinv ⟨hlive, hw hl⟩ fun _ _ _ => trivial⟩
    · have hinv : (attestation p).inv { w with life := Function.update w.life q .live } := fun hu =>
        hw (by rw [← (hview hq).life]; exact hu)
      refine ⟨hinv, hview, Protocol.wp_silent (fun _ _ h => absurd h hq) (fun w c choice => ?_)
        (fun _ _ => trivial) _ _⟩
      simp [orderly, reconciled, hq]
  stop q w hw := by
    refine ⟨fun hu => ?_, fun hq => ⟨Function.update_of_ne (Ne.symm hq) .., rfl, rfl, rfl, rfl⟩⟩
    by_cases hq : q = p
    · subst hq
      simp [machine, stop] at hu
    · exact hw (by simpa [machine, stop, Function.update_of_ne (Ne.symm hq)] using hu)
  env e w w' hw h ho hu := by
    have hd := env_drift h ho
    rw [hd.scaled]
    exact hw (by rw [← hd.life]; exact hu)
  stable _ _ := .const

/-- **Attestation.** In a run whose upgrades hold, `tar` starts with a source
that was read as Ready once both reconcilers were idle, with a manifest of what
was read, and the source has not changed since. -/
theorem tar_attested {s : Runs} (h₀ : Initial w) (h : Reachable machine (program setup) (orderly p) w s)
    {recovery : Recovery} {next : Unit → Script Call Call.Ret (Except Stop Unit × Variables)}
    (hp : s.procs p = some (.call (.startTar recovery) next)) :
    AttestedBy recovery.manifest (s.world.observed p) ∧
      ∀ c workload, (s.world.observed p).workload c = some workload →
        (s.world.workload c).container = workload.container :=
  (Protocol.sound attestation_environment (fun _ => h₀.unscaled p) h).pending hp rfl recovery rfl

/-! ## An upgrade in the gap -/

/-- Helm upgrades JanusGraph, with a result. -/
def upgrade (ready : Option Nat) (status : ConditionStatus) : List (Event PodName Mode Choice Env) :=
  [.env (.begin .helm [⟨.reconciling, .true⟩]),
   .env (.upgrade .janusgraph ⟨utf16 "janusgraph:2", some [(utf16 "GRAPH_KEYSPACE", utf16 "cartyx_graph")]⟩),
   .env (.report .janusgraph ready ready),
   .env (.finish .helm [⟨.ready, status⟩] none [some (utf16 "0.2.0")])]

/-- Whether a process is about to start `tar`. -/
def startsTar : Option (Script Call Call.Ret (Except Stop Unit × Variables)) → Bool
  | some (.call (.startTar _) _) => true
  | _ => false

theorem startsTar_iff {proc : Option (Script Call Call.Ret (Except Stop Unit × Variables))} :
    startsTar proc = true ↔ ∃ recovery next, proc = some (.call (.startTar recovery) next) := by
  unfold startsTar
  split
  · simp
  · next h => simpa using fun recovery next he => h recovery next he

/-- A backup whose source is upgraded after its preflight, the release Ready again. -/
theorem tar_attested_sample : ∃ s : Runs,
    Pool.run machine (program sampleSetup) (orderly second) ⟨atRest, fun _ => none⟩
      (toStartTar second (upgrade (some 1) .true)) = some s ∧
    ∃ recovery next, s.procs second = some (.call (.startTar recovery) next) ∧
      AttestedBy recovery.manifest (s.world.observed second) := by
  have hrun : ((Pool.run machine (program sampleSetup) (orderly second) ⟨atRest, fun _ => none⟩
      (toStartTar second (upgrade (some 1) .true))).map fun s => startsTar (s.procs second)) = some true := by
    decide +kernel
  obtain ⟨s, hs, ht⟩ := Option.map_eq_some_iff.mp hrun
  obtain ⟨recovery, next, hp⟩ := startsTar_iff.mp ht
  exact ⟨s, hs, recovery, next, hp, (tar_attested atRest_initial (Pool.run_sound hs) hp).1⟩

/-- An upgrade that fails after the preflight is archived. -/
theorem tar_unready : ¬ ∀ (setup : Setup) (w : World) (s : Runs) (p : PodName), Initial w →
    Reachable machine (program setup) (reconciled p) w s →
      ∀ recovery next, s.procs p = some (.call (.startTar recovery) next) →
        AttestedBy recovery.manifest (s.world.observed p) := by
  intro h
  have hrun : ((Pool.run machine (program sampleSetup) (reconciled second) ⟨atRest, fun _ => none⟩
      (toStartTar second (upgrade none .false))).map fun s =>
        (startsTar (s.procs second), (s.world.observed second).helm.map (·.is .ready))) =
      some (true, some false) := by decide +kernel
  obtain ⟨s, hs, hw⟩ := Option.map_eq_some_iff.mp hrun
  simp only [Prod.mk.injEq] at hw
  obtain ⟨recovery, next, hp⟩ := startsTar_iff.mp hw.1
  obtain ⟨graph, cassandra, helm, -, -, hh, ha⟩ :=
    h sampleSetup atRest s second atRest_initial (Pool.run_sound hs) recovery next hp
  have hr : helm.is .ready = false := by simpa [hh] using hw.2
  rw [ha.ready] at hr
  cases hr

end CartyxInfra.Backup
