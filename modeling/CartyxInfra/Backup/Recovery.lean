/-
What the Lease guarantees of every run: while it is free the services are
restored, and while it is held a `recover` run that is left to itself, none of
whose calls fail, ends with the Lease free and the services restored, unless
the databases do not come up before its wait times out.
-/
import CartyxInfra.Backup.Lease

namespace CartyxInfra.Backup

open JString

variable {q holder : PodName} {α : Type}

/-! ## A run left to itself -/

/-- A pod that has ended is reported so; with `ready`, a database that is polled has recovered. -/
def answers (ready : Bool) (w : World) (c : Call) (choice : Choice) : Bool :=
  match c with
  | .getPod name => w.life name == .live || !choice.phases.any Phase.active
  | .getWorkload c => !ready || c.serving (w.workload c) == some 1
  | _ => true

/-- Only one run makes calls, and none of them fails. -/
def undisturbed (ready : Bool) (q : PodName) (w : World) : Move PodName Call Choice Env → Bool
  | .act p c choice => p == q && choice.error.isNone && answers ready w c choice
  | .env _ => true

/-- The others leave the Lease, the services and what the run has read alone,
and the Lease's holder has ended. -/
def recoveryProtocol (holder q : PodName) : Protocol PodName Call World where
  inv w := w.life q ≠ .unborn ∧ w.life holder = .dead
  guarantee p w w' := p ≠ q → w'.lease = w.lease ∧ SameServices w w' ∧ w'.observed q = w.observed q
  pending _ _ _ := True

/-- The services restored so far, the Lease as it was. -/
def Ahead (lease : Lease) (done : List Path) (s : Variables) (w : World) : Prop :=
  s.locked = false ∧ w.lease = lease ∧ ∀ path ∈ done, Up w path

/-- The run's last poll of the two databases did not find both recovered. -/
def Unready (q : PodName) (w : World) : Prop :=
  ∃ cassandra graph, (w.observed q).cassandra = some cassandra ∧ (w.observed q).graph = some graph ∧
    ¬ (cassandra.readyReplicas.getD 0 = 1 ∧ graph.availableReplicas.getD 0 = 1)

/-- The Lease is free and the services are restored. -/
def Recovered (w : World) : Prop := w.lease.holderIdentity = none ∧ Restored w

/-- The wait for the databases has timed out: they are wanted, have not been
found up, and the Lease is held as it was. -/
structure TimedOut (q : PodName) (lease : Lease) (w : World) : Prop where
  lease : w.lease = lease
  wanted : ∀ c, (w.workload c).replicas = 1
  unready : Unready q w

section

variable {ready : Bool} {lease : Lease}

/-- How a program that restores services throws: it exits with everything
recovered, or its wait has timed out. -/
def Left (ready : Bool) (q : PodName) (lease : Lease) (e : Stop) (s : Variables) (w : World) : Prop :=
  e = .exit ∧ Recovered w ∨ ready = false ∧ e ≠ .exit ∧ s.locked = false ∧ TimedOut q lease w

/-- A program that, left to itself, returns, or throws as it may. -/
abbrev Recovers (ready : Bool) (holder q : PodName) (lease : Lease) (A : Variables → World → Prop) (m : Js α)
    (Q : α → Variables → World → Prop) : Prop :=
  Triple (recoveryProtocol holder q) machine (undisturbed ready q) q A m Q (Left ready q lease)

theorem recovery_stable {A : World → Prop}
    (h : ∀ w w', w'.lease = w.lease → SameServices w w' → w'.observed q = w.observed q → A w → A w') :
    (recoveryProtocol holder q).Stable machine (undisturbed ready q) q A := by
  rintro w w' ⟨-, -, ⟨p, hp, hg⟩ | ⟨e, he, -⟩⟩ ha
  · obtain ⟨hl, hs, ho⟩ := hg hp
    exact h w w' hl hs ho ha
  · have hu := env_unchanged he
    exact h w w' hu.lease hu.services (by rw [env_observed he]) ha

theorem ahead_stable {done : List Path} (s : Variables) :
    (recoveryProtocol holder q).Stable machine (undisturbed ready q) q (Ahead lease done s) :=
  recovery_stable fun _ _ hl hs _ ⟨hk, hw, hup⟩ =>
    ⟨hk, hl.trans hw, fun path hp => (hs.up path).mpr (hup path hp)⟩

theorem timedOut_stable : (recoveryProtocol holder q).Stable machine (undisturbed ready q) q (TimedOut q lease) :=
  recovery_stable fun w w' hl hs ho h =>
    ⟨hl.trans h.lease, fun c => (hs.replicas c).trans (h.wanted c), by rw [Unready, ho]; exact h.unready⟩

theorem Ahead.unchanged {lease : Lease} {done : List Path} {s : Variables} {w w' : World}
    (h : Ahead lease done s w) (hu : Unchanged w w') : Ahead lease done s w' :=
  ⟨h.1, hu.lease.trans h.2.1, fun path hp => (hu.services.up path).mpr (h.2.2 path hp)⟩

/-- A call that is answered, under an assertion the others leave. -/
theorem recovers_call {c : Call} {next : c.Ret → Js α} {A : Variables → World → Prop}
    {Q : α → Variables → World → Prop}
    (hA : ∀ s, (recoveryProtocol holder q).Stable machine (undisturbed ready q) q (A s))
    (h : ∀ s w choice r w', w.life holder = .dead → A s w → choice.error = none →
      answers ready w c choice = true → perform q c choice w = some (r, w') → ∃ a, next r = pure a ∧ Q a s w') :
    Recovers ready holder q lease A (Program.make c >>= next) Q := by
  refine triple_call hA fun s w hw ha => ⟨trivial, fun choice r w' hr hal => ?_⟩
  simp only [undisturbed, Bool.and_eq_true, Option.isNone_iff_eq_none] at hal
  have hinv : (recoveryProtocol holder q).inv w' := by
    simp only [recoveryProtocol, perform_life hr]
    exact hw
  exact ⟨hinv, fun h => absurd rfl h, .inl (h s w choice r w' hw.2 ha hal.1.2 hal.2 hr)⟩

variable {lease' : Lease} {done : List Path}

theorem recovers_getLease :
    Recovers ready holder q lease' (Ahead lease done) getLease fun l s w => l = lease ∧
      Ahead lease done s w := by
  refine recovers_call ahead_stable fun s w choice r w' _ ha he _ hr => ?_
  simp only [perform, Fallible.read, Fallible.reply_ok he, Option.some.injEq, Prod.mk.injEq] at hr
  obtain ⟨rfl, rfl⟩ := hr
  exact ⟨_, rfl, ha.2.1, ha⟩

theorem recovers_getPod :
    Recovers ready holder q lease' (Ahead lease done) (getPod holder)
      fun phases s w => phases.any Phase.active = false ∧ Ahead lease done s w := by
  refine recovers_call ahead_stable fun s w choice r w' hd ha he hans hr => ?_
  simp only [perform, Fallible.read, Fallible.reply_ok he] at hr
  split at hr
  · cases hr
  · simp only [Option.some.injEq, Prod.mk.injEq] at hr
    obtain ⟨rfl, rfl⟩ := hr
    exact ⟨_, rfl, by simpa [answers, hd] using hans, ha⟩

theorem recovers_now {A : Variables → World → Prop}
    (hA : ∀ s, (recoveryProtocol holder q).Stable machine (undisturbed ready q) q (A s)) :
    Recovers ready holder q lease' A now fun _ => A := by
  refine Triple.make hA fun s w hw ha => ⟨trivial, fun choice r w' hr _ => ?_⟩
  simp only [machine, perform, Option.some.injEq, Prod.mk.injEq] at hr
  obtain ⟨-, rfl⟩ := hr
  exact ⟨hw, fun h => absurd rfl h, ha⟩

theorem recovers_turn (path : Path) :
    Recovers ready holder q lease' (Ahead lease done) (turn path true) fun _ => Ahead lease (path :: done) := by
  have ahead : ∀ s w, Ahead lease done s w → Ahead lease (path :: done) s (w.turn q path true) := by
    rintro s w ⟨hk, hl, hup⟩
    refine ⟨hk, by rw [turn_lease]; exact hl, ?_⟩
    simp only [List.forall_mem_cons]
    exact ⟨turn_up w q path, fun path' hp => turn_on (hup path' hp)⟩
  cases path with
  | workload c =>
    refine recovers_call ahead_stable fun s w choice r w' _ ha he _ hr => ?_
    obtain ⟨rfl, rfl⟩ := Fallible.write_ok he hr
    exact ⟨(), rfl, ahead s w ha⟩
  | release r =>
    refine recovers_call ahead_stable fun s w choice r w' _ ha he _ hr => ?_
    obtain ⟨rfl, rfl⟩ := Fallible.write_ok he hr
    exact ⟨(), rfl, ahead s w ha⟩

/-! ## The wait for the databases -/

/-- Cassandra has been read; with `ready`, when it had recovered. -/
def Halfway (ready : Bool) (q : PodName) (lease : Lease) (done : List Path) (cassandra : Workload)
    (s : Variables) (w : World) : Prop :=
  Ahead lease done s w ∧ (w.observed q).cassandra = some cassandra ∧
    (ready = true → cassandra.readyReplicas = some 1)

theorem halfway_stable {cassandra : Workload} (s : Variables) :
    (recoveryProtocol holder q).Stable machine (undisturbed ready q) q
      (Halfway ready q lease done cassandra s) :=
  recovery_stable fun _ _ hl hs ho ⟨⟨hk, hw, hup⟩, hc, hr⟩ =>
    ⟨⟨hk, hl.trans hw, fun path hp => (hs.up path).mpr (hup path hp)⟩, by rw [ho]; exact hc, hr⟩

/-- A poll that has found the databases not up may be repeated. -/
def Polled (ready : Bool) (q : PodName) (lease : Lease) (done : List Path) (s : Variables) (w : World) : Prop :=
  Ahead lease done s w ∧ ready = false ∧ Unready q w

theorem polled_stable (s : Variables) :
    (recoveryProtocol holder q).Stable machine (undisturbed ready q) q (Polled ready q lease done s) :=
  recovery_stable fun _ _ hl hs ho ⟨⟨hk, hw, hup⟩, hr, hu⟩ =>
    ⟨⟨hk, hl.trans hw, fun path hp => (hs.up path).mpr (hup path hp)⟩, hr, by rw [Unready, ho]; exact hu⟩

theorem recovers_getCassandra :
    Recovers ready holder q lease' (Ahead lease done) (getWorkload .cassandra)
      (Halfway ready q lease done) := by
  refine recovers_call ahead_stable fun s w choice r w' _ ha he hans hr => ?_
  have hu := perform_unchanged (c := .getWorkload .cassandra) rfl hr
  simp only [perform, Choice.observe, Fallible.reply_ok he, he, Option.isNone_none, if_true, Option.some.injEq,
    Prod.mk.injEq] at hr
  obtain ⟨rfl, rfl⟩ := hr
  refine ⟨_, rfl, ha.unchanged hu, by simp [World.observe, Snapshot.setWorkload], fun hready => ?_⟩
  simpa [answers, hready, Component.serving] using hans

theorem recovers_getGraph {cassandra : Workload} :
    Recovers ready holder q lease' (Halfway ready q lease done cassandra) (getWorkload .janusgraph)
      fun graph s w => Ahead lease done s w ∧
        (original.cassandra = cassandra.readyReplicas.getD 0 ∧ original.graph = graph.availableReplicas.getD 0 ∨
          Polled ready q lease done s w) := by
  refine recovers_call halfway_stable fun s w choice r w' _ ⟨ha, hc, hready⟩ he hans hr => ?_
  have hu := perform_unchanged (c := .getWorkload .janusgraph) rfl hr
  simp only [perform, Choice.observe, Fallible.reply_ok he, he, Option.isNone_none, if_true, Option.some.injEq,
    Prod.mk.injEq] at hr
  obtain ⟨rfl, rfl⟩ := hr
  refine ⟨_, rfl, ha.unchanged hu, ?_⟩
  by_cases hup : cassandra.readyReplicas.getD 0 = 1 ∧ (w.workload .janusgraph).availableReplicas.getD 0 = 1
  · exact .inl ⟨hup.1.symm, hup.2.symm⟩
  · refine .inr ⟨ha.unchanged hu, ?_, cassandra, w.workload .janusgraph, ?_, ?_, hup⟩
    · cases ready with
      | false => rfl
      | true =>
        have hgraph : (w.workload .janusgraph).availableReplicas = some 1 := by
          simpa [answers, Component.serving] using hans
        exact absurd ⟨by simp [hready rfl], by simp [hgraph]⟩ hup
    · simpa [World.observe, Snapshot.setWorkload] using hc
    · simp [World.observe, Snapshot.setWorkload]

/-- A poll finds the databases recovered, or may be repeated. -/
theorem recovers_recovered :
    Recovers ready holder q lease' (Ahead lease done) (recovered original)
      fun b s w => Ahead lease done s w ∧ (b = false → Polled ready q lease done s w) := by
  refine Triple.bind recovers_getCassandra fun cassandra => Triple.bind recovers_getGraph fun graph => ?_
  refine Triple.pure _ fun s w ⟨ha, hpoll⟩ => ⟨ha, fun hb => ?_⟩
  rcases hpoll with ⟨hc, hg⟩ | hpoll
  · simp [← hc, ← hg] at hb
  · exact hpoll

/-- The polls: each but the first follows one that has found the databases not up. -/
theorem recovers_poll {label : JString} {deadline : Int} (hdone : ∀ c, .workload c ∈ done) (polls : Nat) :
    Recovers ready holder q lease
      (fun s w => Ahead lease done s w ∧ (polls = 0 → Polled ready q lease done s w))
      (poll (recovered original) label deadline polls) fun _ => Ahead lease done := by
  have timedOut : ∀ message s w, Polled ready q lease done s w → Left ready q lease (.error message) s w :=
    fun message s w ⟨⟨hk, hl, hup⟩, hr, hu⟩ => .inr ⟨hr, nofun, hk, hl, fun c => hup _ (hdone c), hu⟩
  induction polls with
  | zero => exact Triple.throw _ fun s w h => timedOut _ s w (h.2 rfl)
  | succ polls ih =>
    refine Triple.bind (recovers_recovered.pre fun s w h => h.1) fun b => ?_
    cases b with
    | true => exact Triple.pure _ fun s w h => h.1
    | false =>
      refine Triple.bind (Triple.pre (recovers_now polled_stable) fun s w h => h.2 rfl) fun time => ?_
      split
      · exact ih.pre fun s w h => ⟨h.1, fun _ => h⟩
      · exact Triple.throw _ (timedOut _)

theorem recovers_waitUntil {label : JString} {seconds : Nat} (hdone : ∀ c, .workload c ∈ done) :
    Recovers ready holder q lease (Ahead lease done) (waitUntil (recovered original) label seconds)
      fun _ => Ahead lease done :=
  Triple.bind (recovers_now ahead_stable) fun _ => (recovers_poll hdone _).pre fun _ _ h => ⟨h, nofun⟩

/-- The services in the order `resume` has restored them, last first. -/
def resumed : List Path := [.release .flux, .release .helm, .workload .janusgraph, .workload .cassandra]

theorem recovers_resume :
    Recovers ready holder q lease (Ahead lease []) (resume original) fun _ => Ahead lease resumed := by
  refine Triple.bind (recovers_turn (.workload .cassandra)) fun _ => ?_
  refine Triple.bind (recovers_turn (.workload .janusgraph)) fun _ => ?_
  refine Triple.bind (recovers_waitUntil fun c => by cases c <;> simp) fun _ => ?_
  refine Triple.bind (recovers_turn (.release .helm)) fun _ => ?_
  exact recovers_turn (.release .flux)

theorem recovers_patchLease {patch : LeasePatch} (hv : patch.resourceVersion = some lease.resourceVersion) :
    Recovers ready holder q lease' (Ahead lease done) (patchLease patch)
      fun _ => Ahead (lease.patch patch) done := by
  refine recovers_call ahead_stable fun s w choice r w' _ ha he _ hr => ?_
  simp only [perform, hv, ha.2.1, Option.all_some, beq_self_eq_true, if_true] at hr
  obtain ⟨rfl, rfl⟩ := Fallible.write_ok he hr
  exact ⟨(), rfl, ha.1, congrArg (Lease.patch · patch) ha.2.1, ha.2.2⟩

theorem recovers_patchStatus {data : Status} :
    Recovers ready holder q lease' (Ahead lease done) (patchStatus data) fun _ => Ahead lease done := by
  refine recovers_call ahead_stable fun s w choice r w' _ ha he _ hr => ?_
  have hu := perform_unchanged (c := .patchStatus data) rfl hr
  obtain ⟨rfl, -⟩ := Fallible.write_ok he hr
  exact ⟨(), rfl, ha.unchanged hu⟩

theorem Ahead.recovered {lease : Lease} {s : Variables} {w : World} (h : Ahead lease resumed s w)
    (hl : lease.holderIdentity = none) : Recovered w := by
  refine ⟨by rw [h.2.1]; exact hl, restored_iff.mpr fun path => h.2.2 path ?_⟩
  match path with
  | .workload .janusgraph | .workload .cassandra | .release .helm | .release .flux => simp [resumed]

/-- A `recover` run that reads a held Lease ends with `process.exit`, or its wait times out. -/
theorem recovers_recover {version : Nat} :
    Recovers ready holder q ⟨version, some holder, some original⟩
      (Ahead ⟨version, some holder, some original⟩ [])
      (recover ⟨version, some holder, some original⟩) fun _ _ _ => False := by
  refine Triple.bind recovers_getPod fun phases => Triple.extract (fun s w h => h.1) fun hph => ?_
  rw [hph]
  refine Triple.bind (Q := fun _ => Ahead ⟨version, some holder, some original⟩ [])
    (Triple.pure () fun s w h => h.2) fun _ => ?_
  refine Triple.bind (Q := fun _ => Ahead ⟨version, some holder, some original⟩ [])
    (Triple.pure () fun s w h => h) fun _ => ?_
  refine Triple.bind recovers_resume fun _ => Triple.bind (recovers_patchLease rfl) fun _ => ?_
  refine Triple.bind recovers_patchStatus fun _ => ?_
  exact Triple.throw _ fun s w h => .inl ⟨rfl, h.recovered rfl⟩

/-- A run whose wait has timed out leaves the Lease: it never held it. -/
theorem recovers_main {setup : Setup} (version : Nat) :
    Triple (recoveryProtocol holder q) machine (undisturbed ready q) q
      (Ahead ⟨version, some holder, some original⟩ []) (main setup q .recover)
      (fun _ _ w => ready = false ∧ TimedOut q ⟨version, some holder, some original⟩ w)
      fun e _ w => e = .exit ∧ Recovered w := by
  let timedOut (s : Variables) (w : World) : Prop :=
    ready = false ∧ s.locked = false ∧ TimedOut q ⟨version, some holder, some original⟩ w
  have body : Recovers ready holder q ⟨version, some holder, some original⟩
      (Ahead ⟨version, some holder, some original⟩ []) (body setup q .recover) fun _ => timedOut := by
    refine Triple.bind recovers_getLease fun lease => Triple.extract (fun s w h => h.1) fun hl => ?_
    subst hl
    exact (recovers_recover.pre fun s w h => h.2).post fun _ _ _ h => h.elim
  refine Triple.bind (Q := fun _ => timedOut) (Triple.tryCatch body fun e => ?_) fun _ => ?_
  · cases e with
    | exit => exact Triple.throw _ fun s w h => h.elim id fun h => absurd rfl h.2.1
    | error message =>
      refine Triple.read fun vars => ?_
      split
      · next hk =>
        refine Triple.extract (c := False) (fun s w ⟨hv, h⟩ => ?_) False.elim
        subst hv
        rcases h with h | h
        · cases h.1
        · simp [h.2.2.1] at hk
      · refine Triple.pure _ fun s w ⟨hv, h⟩ => ?_
        rcases h with h | h
        · cases h.1
        · exact ⟨h.1, h.2.2⟩
  · refine Triple.read fun vars => ?_
    split
    · next hk =>
      refine Triple.extract (c := False) (fun s w ⟨hv, h⟩ => ?_) False.elim
      subst hv
      simp [h.2.1] at hk
    · exact Triple.pure _ fun s w ⟨_, h⟩ => ⟨h.1, h.2.2⟩

end

/-! ## Left to itself, a run ends -/

/-- The databases are reported ready. -/
def Serving (w : World) : Prop := ∀ c : Component, c.serving (w.workload c) = some 1

/-- Answers that are always possible. -/
def answer (c : Call) (w : World) : Choice :=
  match c with
  | .getPod name => { phases := if w.life name = .live then [.running] else [] }
  | .arrival paths => { order := paths }
  | _ => {}

theorem serving_patchScale {w : World} {c : Component} {n : Nat} (h : Serving w) :
    Serving (w.patchScale q c n) := by
  intro k
  have hk := h k
  by_cases hc : k = c
  · subst hc
    cases k <;> simpa [World.patchScale, World.setWorkload, Component.serving] using hk
  · simpa [World.patchScale, World.setWorkload, hc] using hk

theorem answer_undisturbed (c : Call) (w : World) (h : Serving w) :
    undisturbed true q w (.act q c (answer c w)) = true := by
  cases c with
  | getPod name => by_cases hl : w.life name = .live <;> simp [undisturbed, answer, answers, hl]
  | getWorkload c => simp [undisturbed, answer, answers, h c]
  | _ => simp [undisturbed, answer, answers]

theorem answered (c : Call) (w : World) (h : Serving w) :
    ∃ r w', machine.alone (undisturbed true q) q answer c w = some (r, w') ∧ Serving w' := by
  simp only [Machine.alone, answer_undisturbed c w h, if_true, machine]
  cases c with
  | getPod name =>
    by_cases hl : w.life name = .live
    · exact ⟨.ok [.running], w, by simp [perform, answer, hl, Fallible.read, Fallible.reply, Phase.active], h⟩
    · exact ⟨.ok [], w, by simp [perform, answer, hl, Fallible.read, Fallible.reply], h⟩
  | arrival paths => exact ⟨paths, w, if_pos (List.isPerm_iff.mpr (.refl paths)), h⟩
  | patchLease patch =>
    simp only [perform, answer]
    split
    · exact ⟨_, _, rfl, h⟩
    · exact ⟨_, _, rfl, h⟩
  | getObject key =>
    simp only [perform, answer]
    split
    · exact ⟨_, _, rfl, h⟩
    · exact ⟨_, _, rfl, h⟩
  | patchScale c n => exact ⟨_, _, rfl, serving_patchScale h⟩
  | _ => exact ⟨_, _, rfl, h⟩

/-! ## What the Lease guarantees -/

/-- How a `recover` run ends: with everything recovered, or its wait timed out. -/
def RecoverEnd (ready : Bool) (q : PodName) (lease : Lease) (p : PodName) (out : Except Stop Unit × Variables)
    (w : World) : Prop :=
  p = q → out.1 = .error .exit ∧ Recovered w ∨ ready = false ∧ out.1 = .ok () ∧ TimedOut q lease w

section

variable {ready : Bool} {lease : Lease} {setup : Setup}

theorem recovery_environment :
    (recoveryProtocol holder q).Environment machine (undisturbed ready q) (program setup)
      (RecoverEnd ready q lease) where
  start p mode w w' hw h := by
    obtain ⟨hl, rfl⟩ := start_eq h
    have hq : q ≠ p := fun he => hw.1 (he ▸ hl)
    have hh : holder ≠ p := by
      rintro rfl
      exact absurd (hl.symm.trans hw.2) nofun
    refine ⟨⟨by simpa [hq] using hw.1, by simpa [hh] using hw.2⟩,
      fun _ => ⟨rfl, ⟨fun _ => rfl, fun _ => rfl⟩, rfl⟩,
      Protocol.wp_silent (fun _ _ => trivial) (fun w c choice => ?_) (fun out w he => absurd he.symm hq) _ _⟩
    simp [undisturbed, Ne.symm hq]
  stop p w hw := by
    refine ⟨⟨?_, ?_⟩, fun _ => ⟨rfl, ⟨fun _ => rfl, fun _ => rfl⟩, rfl⟩⟩
    · by_cases he : q = p
      · simp [machine, stop, he]
      · simpa [machine, stop, he] using hw.1
    · by_cases he : holder = p
      · simp [machine, stop, he]
      · simpa [machine, stop, he] using hw.2
  env e w w' hw h _ := by
    have hu := env_unchanged h
    exact ⟨by rw [hu.life]; exact hw.1, by rw [hu.life]; exact hw.2⟩
  stable p out := by
    by_cases hp : p = q
    · subst hp
      intro w w' hi h he
      rcases h he with ⟨ho, hrecovered⟩ | ⟨hr, ho, ht⟩
      · refine .inl ⟨ho, ?_⟩
        have stable : (recoveryProtocol holder p).Stable machine (undisturbed ready p) p Recovered :=
          recovery_stable fun w w' hl hs _ ⟨hfree, hr⟩ => ⟨by rw [hl]; exact hfree,
            restored_iff.mpr fun path => (hs.up path).mpr (restored_iff.mp hr path)⟩
        exact stable w w' hi hrecovered
      · exact .inr ⟨hr, ho, timedOut_stable w w' hi ht⟩
    · exact fun _ _ _ _ he => absurd he hp

theorem recover_sound {w : World} {procs : PodName → Option (Script Call Call.Ret _)}
    (hheld : w.lease.holderIdentity = some holder) (ho : w.lease.original = some original)
    (hd : w.life holder = .dead) (hq : w.life q ≠ .unborn) :
    (recoveryProtocol holder q).Sound machine (undisturbed ready q) (RecoverEnd ready q w.lease)
      ⟨w, Function.update procs q (some (program setup q .recover))⟩ := by
  have hlease : w.lease = ⟨w.lease.resourceVersion, some holder, some original⟩ := by rw [← hheld, ← ho]
  refine Protocol.Sound.of_wp ⟨hq, hd⟩ fun p script hp => ?_
  by_cases he : p = q
  · subst he
    simp only [Function.update_self, Option.some.injEq] at hp
    subst hp
    refine (recovers_main w.lease.resourceVersion).script ⟨hq, hd⟩ ⟨rfl, hlease, by simp⟩ ?_
    rintro ⟨out, vars⟩ w' hout -
    rw [hlease]
    cases out with
    | ok => exact .inr ⟨hout.1, rfl, hout.2⟩
    | error e =>
      obtain ⟨rfl, hr⟩ := hout
      exact .inl ⟨rfl, hr⟩
  · refine Protocol.wp_silent (fun _ _ => trivial) (fun w c choice => ?_) (fun out w hq => absurd hq he) _ _
    simp [undisturbed, he]

/-- The databases come up, and then every call is answered. -/
theorem recover_ends {w : World} {procs : PodName → Option (Script Call Call.Ret _)} :
    ∃ t out, Relation.ReflTransGen (Step machine (program setup) (undisturbed true q))
      ⟨w, Function.update procs q (some (program setup q .recover))⟩ t ∧ t.procs q = some (.pure out) := by
  obtain ⟨w₁, h₁, hw₁⟩ : ∃ w₁, machine.env (.report .cassandra (some 1) (some 1)) w = some w₁ ∧
      (w₁.workload .cassandra).readyReplicas = some 1 := ⟨_, rfl, by simp [World.setWorkload]⟩
  obtain ⟨w₂, h₂, hc, hg⟩ : ∃ w₂, machine.env (.report .janusgraph (some 1) (some 1)) w₁ = some w₂ ∧
      (w₂.workload .cassandra).readyReplicas = some 1 ∧ (w₂.workload .janusgraph).availableReplicas = some 1 :=
    ⟨_, rfl, by simpa [World.setWorkload] using hw₁, by simp [World.setWorkload]⟩
  have hserving : Serving w₂ := by
    intro c
    cases c with
    | cassandra => exact hc
    | janusgraph => exact hg
  obtain ⟨out, w₃, hout⟩ := Script.exec_total (answered (q := q)) (program setup q .recover) w₂ hserving
  refine ⟨_, out, .head (.env h₁ rfl)
    (.head (.env h₂ rfl) (Script.exec_reaches hout (Function.update_self ..))), ?_⟩
  exact Function.update_self ..

end

theorem undisturbed_mono {w : World} {move : Move PodName Call Choice Env}
    (h : undisturbed true q w move = true) : undisturbed false q w move = true := by
  cases move with
  | env e => rfl
  | act p c choice =>
    cases c <;> simp_all [undisturbed, answers]

/-- A `recover` run started here and left to itself can end with the Lease
free and the services restored, and ends so unless its wait times out. -/
def Recoverable (setup : Setup) (s : Runs) : Prop :=
  ∀ q w, s.procs q = none → start q s.world = some w →
    (∃ t out, Relation.ReflTransGen (Step machine (program setup) (undisturbed false q))
      ⟨w, Function.update s.procs q (some (program setup q .recover))⟩ t ∧ t.procs q = some (.pure out) ∧
        out.1 = .error .exit ∧ Recovered t.world) ∧
    ∀ t out, Relation.ReflTransGen (Step machine (program setup) (undisturbed false q))
      ⟨w, Function.update s.procs q (some (program setup q .recover))⟩ t → t.procs q = some (.pure out) →
        out.1 = .error .exit ∧ Recovered t.world ∨ out.1 = .ok () ∧ TimedOut q w.lease t.world

theorem recoverable {setup : Setup} {s : Runs} (hheld : s.world.lease.holderIdentity = some holder)
    (ho : s.world.lease.original = some original) (hd : s.world.life holder = .dead) :
    Recoverable setup s := by
  intro q w hp hs
  obtain ⟨hl, rfl⟩ := start_eq hs
  have hne : holder ≠ q := by
    rintro rfl
    exact absurd (hl.symm.trans hd) nofun
  have hend : ∀ (ready : Bool) t out, Relation.ReflTransGen (Step machine (program setup) (undisturbed ready q))
      ⟨{ s.world with life := Function.update s.world.life q .live },
        Function.update s.procs q (some (program setup q .recover))⟩ t → t.procs q = some (.pure out) →
      out.1 = .error .exit ∧ Recovered t.world ∨
        ready = false ∧ out.1 = .ok () ∧ TimedOut q s.world.lease t.world := by
    intro ready t out ht hout
    have hsound := (recover_sound hheld ho (w := { s.world with life := Function.update s.world.life q .live })
      (by simpa [hne] using hd) (by simp)).run recovery_environment ht
    exact hsound.result hout rfl
  refine ⟨?_, fun t out ht hout => (hend false t out ht hout).imp_right And.right⟩
  obtain ⟨t, out, ht, hout⟩ : ∃ t out, Relation.ReflTransGen
      (Step machine (program setup) (undisturbed true q))
      ⟨{ s.world with life := Function.update s.world.life q .live },
        Function.update s.procs q (some (program setup q .recover))⟩ t ∧ t.procs q = some (.pure out) :=
    recover_ends
  have hrecovered := (hend true t out ht hout).resolve_right fun h => absurd h.1 nofun
  exact ⟨t, out, ht.lift id fun _ _ hstep => hstep.mono undisturbed_mono, hout, hrecovered⟩

/-- **The Lease.** In every pool that backup and `recover` runs reach, the
services are restored while the Lease is free; while it is held it says what
to restore, and once its holder's pod has ended, a `recover` run whose calls
do not fail restores it and frees the Lease, or gives up waiting for the
databases with the Lease held as it was. -/
theorem lease_protocol {setup : Setup} {w : World} {s : Runs} (h₀ : Initial w)
    (h : Reachable machine (program setup) always w s) :
    (s.world.lease.holderIdentity = none → Restored s.world) ∧
    ∀ holder, s.world.lease.holderIdentity = some holder →
      s.world.lease.original = some ⟨1, 1, false, false⟩ ∧
      (s.world.life holder = .dead → Recoverable setup s) := by
  rw [← allowed_false] at h
  have hinv : LeaseInv s.world := (reachable_sound h₀ h).inv
  exact ⟨hinv.free, fun holder hh => ⟨(hinv.held holder hh).1, recoverable hh (hinv.held holder hh).1⟩⟩

/-- The pod of a backup that does not end by itself. -/
def interrupted : PodName := ⟨utf16 "backup-1", by decide⟩

/-- A backup that is killed once it has taken JanusGraph down. -/
def interruptedRun : Option Runs :=
  Pool.run machine (program sampleSetup) always ⟨atRest, fun _ => none⟩
    ([.start interrupted .backup] ++ acts interrupted (preflightAnswers ++ fine 9) ++
      acts interrupted (inOrder [.workload .janusgraph, .workload .cassandra, .release .helm] ++ fine 2) ++
      [.stop interrupted])

theorem lease_protocol_interrupted : ∃ s, interruptedRun = some s ∧
    s.world.lease.holderIdentity = some interrupted ∧ (s.world.workload .janusgraph).replicas = 0 ∧
    Recoverable sampleSetup s := by
  have hrun : (interruptedRun.map fun s => (s.world.lease.holderIdentity,
      (s.world.workload .janusgraph).replicas, s.world.life interrupted)) =
      some (some interrupted, 0, .dead) := by decide +kernel
  obtain ⟨s, hs, hw⟩ := Option.map_eq_some_iff.mp hrun
  simp only [Prod.mk.injEq] at hw
  exact ⟨s, hs, hw.1, hw.2.1,
    ((lease_protocol atRest_initial (Pool.run_sound hs)).2 interrupted hw.1).2 hw.2.2⟩

end CartyxInfra.Backup
