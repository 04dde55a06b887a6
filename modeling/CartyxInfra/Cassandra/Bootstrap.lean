/-
Readiness, over any number of bootstrap processes.

The marker that `ready` reads is the row the script inserts last, but `cqlsh`
goes on after a statement that fails: `ready_unprovisioned` is a run that is
ready with the default login open. `ready_provisioned` holds the runs in which
no marker lands after a missed statement.
-/
import CartyxInfra.Lib.RelyGuarantee
import CartyxInfra.Cassandra.Provisioning

namespace CartyxInfra.Cassandra

variable {setup : Setup} {w w' : World} {p : Nat} {statement : Statement}

/-! ## The protocol -/

/-- No marker lands after a statement of the same `cqlsh` that has never been applied. -/
def unmissed (setup : Setup) (w : World) : Move Nat Call Choice Empty → Bool
  | .act p (.execute user statement) choice =>
    !(statement.marks setup && choice.lands w user statement) || (w.missed p).all (w.applied.contains ·)
  | _ => true

/-- Processes that only ever add: what has been applied stays so. -/
def bootstrapping (setup : Setup) : Protocol Nat Call World where
  inv := Consistent setup
  guarantee p w w' := Grows w w' ∧ ∀ q, q ≠ p → w'.missed q = w.missed q
  pending _ _ _ := True

/-- The program keeps to the protocol, and exits with 0 only where everything has been applied. -/
abbrev Keeps (setup : Setup) (p : Nat) (A : World → Prop) (m : Py α) (Q : α → World → Prop) : Prop :=
  Triple (bootstrapping setup) machine (unmissed setup) p (fun _ => A) m (fun a _ => Q a)
    fun raised _ w => exitStatus (.error raised) = 0 → AllApplied setup w

/-- The other processes leave the assertion true. -/
abbrev StableFor (setup : Setup) (p : Nat) (A : World → Prop) : Prop :=
  (bootstrapping setup).Stable machine (unmissed setup) p A

theorem stable_of_grows {A : World → Prop}
    (h : ∀ w w', Grows w w' → w'.missed p = w.missed p → A w → A w') : StableFor setup p A := by
  rintro w w' ⟨-, -, ⟨q, hq, hg, hmissed⟩ | ⟨e, -⟩⟩ ha
  · exact h w w' hg (hmissed p hq.symm) ha
  · exact e.elim

/-- Each of the statements was applied, or missed by the process's `cqlsh`. -/
def Met (p : Nat) (done : List Statement) (w : World) : Prop := ∀ s ∈ done, s ∈ w.applied ∨ s ∈ w.missed p

theorem stable_met {done : List Statement} : StableFor setup p (Met p done) :=
  stable_of_grows fun w w' hg hm h s hs => (h s hs).imp (fun ha => hg.applied ha) fun hx => by rwa [hm]

theorem stable_true : StableFor setup p fun _ => True := fun _ _ _ h => h

theorem keeps_throw {raised : Raised} (h : exitStatus (.error raised) ≠ 0) {A : World → Prop}
    {Q : α → World → Prop} :
    Keeps setup p A (throw raised) Q := Triple.throw _ fun _ _ _ h0 => absurd h0 h

/-! ## A statement -/

theorem answer_ok {choice : Choice} {accepted : Bool} {printed stdout stderr : Text}
    (h : choice.answer accepted printed = .ok stdout stderr) : stdout = printed := by
  unfold Choice.answer at h
  split at h
  · split at h
    · exact (Answer.ok.inj h).1.symm
    · cases h
  · cases h
  · cases h

/-- A statement lands or is missed. -/
theorem execute_cases {user : RoleName} {choice : Choice} {r : Answer}
    (h : perform p (.execute user statement) choice w = some (r, w')) :
    (∀ stdout stderr, r = .ok stdout stderr → stdout = w.output statement) ∧
    ((choice.lands w user statement = true ∧ w.has statement = true ∧ w' = w.land statement) ∨
      (choice.lands w user statement = false ∧ w' = w.miss p statement)) := by
  simp only [perform, Option.some.injEq, Prod.mk.injEq] at h
  obtain ⟨hanswer, rfl⟩ := h
  refine ⟨fun stdout stderr he => answer_ok (hanswer.trans he), ?_⟩
  cases hl : choice.lands w user statement with
  | true =>
    have hhas := hl
    simp only [Choice.lands, Bool.and_eq_true] at hhas
    exact .inl ⟨rfl, hhas.1.2, rfl⟩
  | false => exact .inr ⟨rfl, rfl⟩

theorem Met.land {done : List Statement} (h : Met p done w) :
    Met p (done ++ [statement]) (w.land statement) := by
  intro s hs
  rcases List.mem_append.mp hs with hs | hs
  · exact (h s hs).imp (List.mem_cons_of_mem _) fun hmissed => by rwa [land_missed]
  · obtain rfl := List.mem_singleton.mp hs
    exact .inl (List.mem_cons_self ..)

theorem Met.miss {done : List Statement} (h : Met p done w) :
    Met p (done ++ [statement]) (w.miss p statement) := by
  intro s hs
  simp only [World.miss, Function.update_self, List.mem_cons]
  rcases List.mem_append.mp hs with hs | hs
  · exact (h s hs).imp id .inr
  · exact .inr (.inl (List.mem_singleton.mp hs))

/-- A statement of a script, after those before it. -/
theorem keeps_execute {user : RoleName} (done : List Statement) (ho : statement.opens = false)
    (hm : statement.marks setup = true → ∀ s ∈ provisioning setup, s ∈ done ∨ s = statement) :
    Keeps setup p (Met p done) (Program.make (.execute user statement)) fun answer w =>
      Met p (done ++ [statement]) w ∧
        ∀ stdout stderr, answer = .ok stdout stderr →
          ∃ w₀, stdout = w₀.output statement ∧ Consistent setup w₀ ∧ w₀.applied ⊆ w.applied := by
  refine Triple.make (fun _ => stable_met) fun _ w hw ha => ⟨trivial, fun choice r w' hr hal => ?_⟩
  obtain ⟨hout, ⟨hl, hhas, rfl⟩ | ⟨-, rfl⟩⟩ := execute_cases hr
  · have hg : Grows w (w.land statement) := land_grows ho
    -- The condition is used here: what was missed has been applied.
    have hinv : Consistent setup (w.land statement) := hw.land ho hhas fun hmarks s hs => by
      have hmissed : ∀ s ∈ w.missed p, s ∈ w.applied := by
        simpa [unmissed, hmarks, hl] using hal
      exact (hm hmarks s hs).imp (fun hd => (ha s hd).elim id (hmissed s)) id
    refine ⟨hinv, ⟨hg, fun _ _ => by rw [land_missed]⟩, ha.land, fun stdout stderr he => ?_⟩
    exact ⟨w, hout stdout stderr he, hw, hg.applied⟩
  · have hg : Grows w (w.miss p statement) := miss_grows
    refine ⟨hw.same hg rfl rfl, ⟨hg, fun q hq => Function.update_of_ne hq ..⟩, ha.miss,
      fun stdout stderr he => ?_⟩
    exact ⟨w, hout stdout stderr he, hw, hg.applied⟩

/-! ## Programs -/

/-- A script that can be run again and again: it opens no login, and a marker
comes after the whole of the provisioning. -/
structure Safe (setup : Setup) (script : List Statement) : Prop where
  opens : ∀ s ∈ script, s.opens = false
  last : ∀ done s rest, script = done ++ s :: rest → s.marks setup = true →
    ∀ s' ∈ provisioning setup, s' ∈ done ∨ s' = s

theorem keeps_executeAll {user : RoleName} {script : List Statement} (hs : Safe setup script) :
    ∀ (rest done : List Statement) (result : Completed), script = done ++ rest →
      Keeps setup p (Met p done) (executeAll user rest result) fun _ _ => True
  | [], _, _, _ => Triple.pure _ fun _ _ _ => trivial
  | statement :: rest, done, result, hscript => by
    have hmem : statement ∈ script := by simp [hscript]
    have hrest : script = (done ++ [statement]) ++ rest := by simp [hscript]
    refine Triple.bind (keeps_execute done (hs.opens _ hmem) (hs.last done statement rest hscript))
      fun answer => ?_
    cases answer with
    | ok => exact Triple.pre (keeps_executeAll hs rest _ _ hrest) fun _ _ h => h.1
    | failed => exact Triple.pre (keeps_executeAll hs rest _ _ hrest) fun _ _ h => h.1
    | expired => exact keeps_throw (by decide)

theorem keeps_connect {user : RoleName} {password : Text} :
    Keeps setup p (fun _ => True) (Program.make (.connect user password)) fun _ _ => True := by
  refine Triple.make (fun _ => stable_true) fun _ w hw _ => ⟨trivial, fun choice r w' hr _ => ?_⟩
  simp only [machine, perform, Option.some.injEq, Prod.mk.injEq] at hr
  obtain ⟨-, rfl⟩ := hr
  have hg : Grows w { w with missed := Function.update w.missed p [] } :=
    ⟨fun _ h => h, fun _ r h => ⟨r, h, id⟩, fun _ h => h, fun _ h => h, fun _ h => h⟩
  exact ⟨hw.same hg rfl rfl, ⟨hg, fun q hq => Function.update_of_ne hq ..⟩, trivial⟩

theorem keeps_cqlsh {user : RoleName} {password : Text} {script : List Statement}
    {Q : Completed → World → Prop}
    (hf : ∀ stderr, Keeps setup p (fun _ => True) (pure ⟨1, [], stderr⟩) Q)
    (hx : ∀ stderr, Keeps setup p (fun _ => True) (executeAll user script ⟨0, [], stderr⟩) Q) :
    Keeps setup p (fun _ => True) (cqlsh user password script) Q := by
  refine Triple.bind keeps_connect fun answer => ?_
  cases answer with
  | ok => exact hx _
  | failed => exact hf _
  | expired => exact keeps_throw (by decide)

theorem keeps_secret {name : SecretName} :
    Keeps setup p (fun _ => True) (secret setup name) fun value _ => value = setup.secrets name := by
  unfold secret
  split
  · exact Triple.pure _ fun _ _ _ => rfl
  · exact keeps_throw (by simp [exitStatus])

theorem keeps_query {sql : List Statement} {user : RoleName} {password expected : Option Text}
    {Q : Completed → World → Prop}
    (h : ∀ password, Keeps setup p (fun _ => True) (cqlsh user password sql) Q) :
    Keeps setup p (fun _ => True) (query setup sql user password expected) fun success w =>
      ∃ result, success = result.succeeds expected ∧ Q result w := by
  have hpassword : Keeps setup p (fun _ => True) (orAdmin setup password) fun _ _ => True := by
    cases password with
    | none => exact Triple.post keeps_secret fun _ _ _ _ => trivial
    | some => exact Triple.pure _ fun _ _ _ => trivial
  refine Triple.bind hpassword fun password => ?_
  exact Triple.bind (h password) fun result => Triple.pure _ fun _ _ hq => ⟨result, rfl, hq⟩

theorem keeps_safe {sql : List Statement} {user : RoleName} {password expected : Option Text}
    (hs : Safe setup sql) :
    Keeps setup p (fun _ => True) (query setup sql user password expected) fun _ _ => True := by
  refine Triple.post (keeps_query (Q := fun _ _ => True) fun password =>
    keeps_cqlsh (fun _ => Triple.pure _ fun _ _ h => h) fun stderr => ?_)
    fun _ _ _ _ => trivial
  exact Triple.pre (keeps_executeAll hs sql [] _ rfl) fun _ _ _ s hs => by cases hs

theorem keeps_orTimeout {α : Type} {m : Py α} {a : α} {Q : α → World → Prop}
    (h : Keeps setup p (fun _ => True) m Q) (hQ : ∀ w, Q a w) :
    Keeps setup p (fun _ => True) (orTimeout m a) Q := by
  refine Triple.tryCatch h fun raised => ?_
  cases raised with
  | timeoutExpired => exact Triple.pure _ fun _ w _ => hQ w
  | valueError | assertionError | systemExit => exact Triple.throw _ fun _ _ he => he

theorem keeps_sleep {seconds : Nat} : Keeps setup p (fun _ => True) (sleep seconds) fun _ _ => True := by
  refine Triple.make (fun _ => stable_true) fun _ w hw _ => ⟨trivial, fun choice r w' hr _ => ?_⟩
  cases hr
  exact ⟨hw, ⟨.refl w, fun _ _ => rfl⟩, trivial⟩

/-! ## Processes -/

theorem safe_of_unmarked {script : List Statement} (ho : ∀ s ∈ script, s.opens = false)
    (hm : ∀ s ∈ script, s.marks setup = false) : Safe setup script := by
  refine ⟨ho, fun done s rest hscript hmarks => ?_⟩
  have := hm s (by simp [hscript])
  rw [this] at hmarks
  cases hmarks

/-- The provisioning script has its marker last. -/
theorem safe_provisioning : Safe setup (provisioning setup) := by
  refine ⟨by simp [provisioning, statements, Statement.opens], fun done s rest hscript hmarks => ?_⟩
  rcases List.eq_nil_or_concat rest with rfl | ⟨init, last, rfl⟩
  · intro s' hs'
    rw [hscript] at hs'
    simpa using hs'
  · exfalso
    have hlast : (provisioning setup).dropLast = done ++ s :: init := by
      rw [hscript, List.concat_eq_append, ← List.cons_append, ← List.append_assoc, List.dropLast_concat]
    have hmem : s ∈ (provisioning setup).dropLast := by simp [hlast]
    have hnone : ∀ s ∈ (provisioning setup).dropLast, s.marks setup = false := by
      simp [provisioning, statements, Statement.marks]
    rw [hnone s hmem] at hmarks
    cases hmarks

theorem keeps_login : Keeps setup p (fun _ => True) (login setup) fun _ _ => True := by
  refine Triple.bind (keeps_safe (safe_of_unmarked (by simp [Statement.opens]) (by simp [Statement.marks])))
    fun known => ?_
  split
  · exact Triple.pure _ fun _ _ _ => trivial
  · refine Triple.bind (Triple.post keeps_secret fun _ _ _ _ => trivial) fun admin => ?_
    refine Triple.bind (keeps_safe (safe_of_unmarked (by simp [Statement.opens]) (by simp [Statement.marks])))
      fun created => ?_
    split <;> exact Triple.pure _ fun _ _ _ => trivial

theorem keeps_authenticate : ∀ attempts,
    Keeps setup p (fun _ => True) (authenticate setup attempts) fun _ _ => True
  | 0 => keeps_throw (by simp [exitStatus])
  | attempts + 1 => by
    refine Triple.bind (keeps_orTimeout keeps_login fun _ => trivial) fun turn => ?_
    cases turn with
    | «break» => exact Triple.pure _ fun _ _ _ => trivial
    | «continue» => exact keeps_authenticate attempts
    | pass => exact Triple.bind keeps_sleep fun _ => keeps_authenticate attempts

theorem keeps_provision {script : List Statement} (hs : Safe setup script) :
    ∀ attempts, Keeps setup p (fun _ => True) (provision setup script attempts) fun _ _ => True
  | 0 => keeps_throw (by simp [exitStatus])
  | attempts + 1 => by
    refine Triple.bind (keeps_orTimeout (keeps_safe hs) fun _ => trivial) fun done => ?_
    split
    · exact Triple.pure _ fun _ _ _ => trivial
    · exact Triple.bind keeps_sleep fun _ => keeps_provision hs attempts

theorem keeps_bootstrap : Keeps setup p (fun _ => True) (bootstrap setup) fun _ _ => True := by
  refine Triple.bind (keeps_authenticate 60) fun _ => ?_
  refine Triple.bind (Triple.pre keeps_secret fun _ _ _ => trivial) fun graph => ?_
  refine Triple.extract (c := graph = setup.secrets .graph) (fun _ _ h => h) fun hgraph => ?_
  refine Triple.bind (Triple.pre keeps_secret fun _ _ _ => trivial) fun state => ?_
  refine Triple.extract (c := state = setup.secrets .state) (fun _ _ h => h) fun hstate => ?_
  rw [hgraph, hstate]
  exact Triple.pre (keeps_provision safe_provisioning 12) fun _ _ _ => trivial

/-- The marker is read only where there is one. -/
theorem keeps_selectValue {user : RoleName} {stderr : Text} :
    Keeps setup p (fun _ => True)
      (executeAll user [.selectValue setup.state (text "bootstrap-v1")] ⟨0, [], stderr⟩)
      fun result w => contains (text "ready") result.stdout = true → AllApplied setup w := by
  refine Triple.bind (Triple.pre (keeps_execute [] rfl nofun) fun _ _ _ s hs => by cases hs) fun answer => ?_
  cases answer with
  | ok stdout _ =>
    refine Triple.pure _ fun _ w h hc => ?_
    obtain ⟨w₀, hout, hw₀, hsub⟩ := h.2 stdout _ rfl
    have hsome : (w₀.value setup.state (text "bootstrap-v1")).isSome = true := by
      cases hv : w₀.value setup.state (text "bootstrap-v1") with
      | some => rfl
      | none =>
        have hempty : contains (text "ready") (printed (text "value") []) = false := by decide
        simp only [hout, World.output, hv, Option.toList_none, List.nil_append, hempty] at hc
        cases hc
    exact fun s hs => hsub (hw₀.marked hsome hs)
  | failed => exact Triple.pure _ fun _ _ _ hc => by cases hc
  | expired => exact keeps_throw (by decide)

theorem keeps_ready : Keeps setup p (fun _ => True) (ready setup) fun _ _ => False := by
  refine Triple.bind (keeps_query
    (Q := fun result w => contains (text "ready") result.stdout = true → AllApplied setup w)
    fun password => keeps_cqlsh (fun _ => Triple.pure _ fun _ _ _ hc => by cases hc)
      fun _ => keeps_selectValue)
    fun found => Triple.throw _ fun _ w ⟨result, hfound, hr⟩ hexit => ?_
  cases found with
  | true =>
    have hsucceeds := hfound.symm
    simp only [Completed.succeeds, Bool.and_eq_true, Option.all_some] at hsucceeds
    exact hr hsucceeds.2
  | false => simp [exitStatus] at hexit

/-- A program that keeps to the protocol, whatever it exits with. -/
abbrev Harmless (setup : Setup) (p : Nat) (m : Py α) : Prop :=
  Triple (bootstrapping setup) machine (unmissed setup) p (fun _ _ => True) m (fun _ _ _ => True)
    fun _ _ _ => True

theorem Keeps.harmless {m : Py α} {Q : α → World → Prop} (h : Keeps setup p (fun _ => True) m Q) :
    Harmless setup p m :=
  Triple.conseq h (fun _ _ _ ha => ha) (fun _ _ _ _ => trivial) fun _ _ _ _ => trivial

theorem harmless_assert {holds : Bool} {message : Text} : Harmless setup p (assert holds message) := by
  unfold assert
  split
  · exact Triple.pure _ fun _ _ _ => trivial
  · exact Triple.throw _ fun _ _ _ => trivial

/-- A statement that is tried, and what is asserted of it. -/
theorem harmless_try {sql : Statement} {user : RoleName} {password : Option Text} {rest : Bool → Py α}
    (ho : sql.opens = false) (hm : sql.marks setup = false) (h : ∀ success, Harmless setup p (rest success)) :
    Harmless setup p (query setup [sql] user password none >>= rest) :=
  Triple.bind (Keeps.harmless (keeps_safe (safe_of_unmarked (by simpa using ho) (by simpa using hm)))) h

theorem harmless_secret {name : SecretName} {rest : Text → Py α} (h : ∀ value, Harmless setup p (rest value)) :
    Harmless setup p (secret setup name >>= rest) := Triple.bind (Keeps.harmless keeps_secret) h

theorem harmless_security : Harmless setup p (security setup) := by
  have hassert {holds : Bool} {message : Text} {rest : Py Unit} (h : Harmless setup p rest) :
      Harmless setup p (assert holds message >>= fun _ => rest) := Triple.bind harmless_assert fun _ => h
  refine harmless_try rfl rfl fun _ => hassert ?_
  refine harmless_secret fun _ => harmless_try rfl rfl fun _ => hassert ?_
  refine harmless_secret fun _ => harmless_try rfl rfl fun _ => hassert ?_
  refine harmless_secret fun _ => harmless_try rfl rfl fun _ => hassert ?_
  exact harmless_try rfl rfl fun _ => hassert (Triple.throw _ fun _ _ _ => trivial)

/-- What an exit says. -/
def Said (setup : Setup) (exit : Exit) (w : World) : Prop :=
  exit.mode = .ready → exit.status = 0 → AllApplied setup w

theorem keeps_main {mode : Mode} : Triple (bootstrapping setup) machine (unmissed setup) p (fun _ _ => True)
    (main setup mode) (fun _ _ _ => mode ≠ .ready)
      fun raised _ w => mode = .ready → exitStatus (.error raised) = 0 → AllApplied setup w := by
  have hcheck : Keeps setup p (fun _ => True) (checkIdentifiers setup) fun _ _ => True := by
    unfold checkIdentifiers
    split
    · exact Triple.pure _ fun _ _ h => h
    · exact keeps_throw (by simp [exitStatus])
  have hkeeps {α : Type} {A : World → Prop} {m : Py α} {Q R : α → World → Prop} (h : Keeps setup p A m Q)
      (hQ : ∀ a w, Q a w → R a w) : Triple (bootstrapping setup) machine (unmissed setup) p (fun _ => A) m
        (fun a _ => R a) fun raised _ w => mode = .ready → exitStatus (.error raised) = 0 →
          AllApplied setup w :=
    Triple.conseq h (fun _ _ _ ha => ha) (fun a _ w hq => hQ a w hq) fun _ _ _ he _ => he
  refine Triple.bind (hkeeps hcheck fun _ _ h => h) fun _ => ?_
  cases mode with
  | ready => exact hkeeps keeps_ready fun _ _ h => h.elim
  | security =>
    exact Triple.conseq harmless_security (fun _ _ _ ha => ha)
      (fun _ _ _ _ => by simp) fun _ _ _ _ h => by cases h
  | bootstrap => exact hkeeps keeps_bootstrap fun _ _ _ => by simp
  | other => exact Triple.throw _ fun _ _ _ h => by cases h

theorem bootstrapping_environment :
    (bootstrapping setup).Environment machine (unmissed setup) (program setup) fun _ => Said setup where
  start p mode w w' hw h := by
    obtain rfl : w = w' := Option.some.inj h
    refine ⟨hw, ⟨.refl w, fun _ _ => rfl⟩, Protocol.wp_bind (keeps_main.script hw trivial ?_)⟩
    rintro ⟨out, _⟩ w' hout hready hstatus
    cases out with
    | ok => exact absurd hready hout
    | error raised => exact hout hready hstatus
  stop _ w hw := ⟨hw, .refl w, fun _ _ => rfl⟩
  env e := e.elim
  stable p exit := stable_of_grows fun _ _ hg _ h hm hs _ hmem => hg.applied (h hm hs hmem)

/-! ## Readiness -/

/-- Every statement has been applied; the scoped roles have their grants, and
the default login is closed. -/
structure Provisioned (setup : Setup) (w : World) : Prop where
  applied : AllApplied setup w
  graph : ∃ r, w.role .cartyxGraph = some r
  state : ∃ r, w.role .cartyxState = some r
  grants : [(.all, setup.graph, .cartyxGraph), (.select, setup.state, .cartyxState),
    (.modify, setup.state, .cartyxState)] ⊆ w.grants
  closed : ∃ r, w.role .cassandra = some r ∧ r.login = false

theorem Consistent.provisioned (h : Consistent setup w) (ha : AllApplied setup w) : Provisioned setup w := by
  have hshown : ∀ s ∈ provisioning setup, s.Shows w := fun s hs => h.shown s (ha hs)
  simp only [provisioning, statements, List.forall_mem_cons] at hshown
  obtain ⟨-, -, hgraph, hstate, hall, hselect, hmodify, -, hclosed, -⟩ := hshown
  exact ⟨ha, hgraph, hstate, by simpa using ⟨hall, hselect, hmodify⟩, hclosed⟩

/-- **Readiness.** Where no marker lands after a missed statement, Cassandra is
provisioned once a process has found it ready. -/
theorem ready_provisioned {s : Processes} (h₀ : Initial setup w)
    (h : Reachable machine (program setup) (unmissed setup) w s) (hp : s.procs p = some (.pure ⟨.ready, 0⟩)) :
    Provisioned setup s.world := by
  have hs := Protocol.sound bootstrapping_environment h₀.consistent h
  exact hs.inv.provisioned (hs.result hp rfl rfl)

/-! ## Runs -/

/-- An environment of the chart. -/
def sampleSetup : Setup :=
  ⟨text "cartyx_graph", text "cartyx_state", text "dc1", fun _ => List.replicate 64 'a'⟩

/-- A statement that fails and is not applied. -/
def refused : Choice := { ending := .failed, applied := false }

/-- A process's next calls, with nature's choice for each. -/
def acts (p : Nat) (choices : List Choice) : List (Event Nat Mode Choice Empty) := choices.map (.act p)

/-- The answers of calls that succeed. -/
def fine (n : Nat) : List Choice := List.replicate n {}

/-- The first process creates `cartyx_admin` and logs in with it. -/
def loggedIn : List (Event Nat Mode Choice Empty) := .start 0 .bootstrap :: acts 0 (fine 5)

/-- A second process finds the marker. -/
def probed : List (Event Nat Mode Choice Empty) := .start 1 .ready :: acts 1 (fine 2)

/-- A process has ended in mode `ready`, with status 0. -/
def isReady : Option (Script Call Call.Ret Exit) → Bool
  | some (.pure exit) => decide (exit = ⟨.ready, 0⟩)
  | _ => false

theorem isReady_iff {proc : Option (Script Call Call.Ret Exit)} :
    isReady proc = true ↔ proc = some (.pure ⟨.ready, 0⟩) := by
  unfold isReady
  split
  · simp
  · next h => simpa using h _

/-- In the first attempt a grant and the marker fail, and the second succeeds. -/
theorem ready_provisioned_sample : ∃ s : Processes,
    Pool.run machine (program sampleSetup) (unmissed sampleSetup) ⟨fresh, fun _ => none⟩
      (loggedIn ++ acts 0 (fine 5 ++ [refused] ++ fine 4 ++ [refused] ++ fine 12) ++ probed) = some s ∧
    s.procs 1 = some (.pure ⟨.ready, 0⟩) ∧ Provisioned sampleSetup s.world := by
  have hrun : ((Pool.run machine (program sampleSetup) (unmissed sampleSetup) ⟨fresh, fun _ => none⟩
      (loggedIn ++ acts 0 (fine 5 ++ [refused] ++ fine 4 ++ [refused] ++ fine 12) ++ probed)).map
        fun s => isReady (s.procs 1)) = some true := by decide +kernel
  obtain ⟨s, hs, hr⟩ := Option.map_eq_some_iff.mp hrun
  have hp := isReady_iff.mp hr
  exact ⟨s, hs, hp, ready_provisioned (fresh_initial _) (Pool.run_sound hs) hp⟩

/-- `ALTER ROLE` fails, the marker after it does not, and the default login stays open. -/
theorem ready_unprovisioned : ¬ ∀ (setup : Setup) (w : World) (s : Processes) (p : Nat), Initial setup w →
    Reachable machine (program setup) always w s → s.procs p = some (.pure ⟨.ready, 0⟩) →
      Provisioned setup s.world := by
  intro h
  have hrun : ((Pool.run machine (program sampleSetup) always ⟨fresh, fun _ => none⟩
      (loggedIn ++ acts 0 (fine 9 ++ [refused] ++ fine 1) ++ probed)).map fun s =>
        (isReady (s.procs 1), (s.world.role .cassandra).map (·.login))) =
      some (true, some true) := by decide +kernel
  obtain ⟨s, hs, hr⟩ := Option.map_eq_some_iff.mp hrun
  simp only [Prod.mk.injEq] at hr
  have hclosed := (h sampleSetup fresh s 1 (fresh_initial _) (Pool.run_sound hs) (isReady_iff.mp hr.1)).closed
  obtain ⟨r, hrole, hlogin⟩ := hclosed
  rw [hrole, Option.map_some, hlogin] at hr
  cases hr.2

end CartyxInfra.Cassandra
