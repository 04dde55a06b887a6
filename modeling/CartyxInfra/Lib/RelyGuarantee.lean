/-
A rely-guarantee logic for pools of scripts.

A `Protocol` is an invariant of the world, what each process promises the
others of its own steps, and what must hold while a call is pending. A script
is verified by itself against it (`wp`), with the other processes' promises
and the world's own moves between any two of its calls; `sound` then holds
every pool that is reached to the protocol. `Triple` is the logic of programs
with exceptions and variables over it.
-/
import CartyxInfra.Lib.Script

namespace CartyxInfra

variable {Pid Call : Type} {Ret : Call → Type} {World Choice Env Mode α β ε σ : Type}

/-- What the processes of a pool keep to. -/
structure Protocol (Pid Call World : Type) where
  inv : World → Prop
  /-- What a process may change. -/
  guarantee : Pid → World → World → Prop
  /-- What holds whenever the process waits on the call. -/
  pending : Pid → Call → World → Prop

namespace Protocol

/-- One step of anything but the process. -/
def Interference (P : Protocol Pid Call World) (M : Machine Pid Call Ret World Choice Env)
    (allowed : World → Move Pid Call Choice Env → Bool) (p : Pid) (w w' : World) : Prop :=
  P.inv w ∧ P.inv w' ∧
    ((∃ q, q ≠ p ∧ P.guarantee q w w') ∨ ∃ e, M.env e w = some w' ∧ allowed w (.env e))

/-- An assertion nothing but the process itself ends. -/
def Stable (P : Protocol Pid Call World) (M : Machine Pid Call Ret World Choice Env)
    (allowed : World → Move Pid Call Choice Env → Bool) (p : Pid) (A : World → Prop) : Prop :=
  ∀ w w', P.Interference M allowed p w w' → A w → A w'

/-- The script keeps to the protocol, run from the world on, and leaves `Q`. -/
def wp (P : Protocol Pid Call World) (M : Machine Pid Call Ret World Choice Env)
    (allowed : World → Move Pid Call Choice Env → Bool) (p : Pid) :
    Script Call Ret α → (α → World → Prop) → World → Prop
  | .pure a, Q, w => Q a w
  | .call c next, Q, w => ∀ w', Relation.ReflTransGen (P.Interference M allowed p) w w' →
      P.pending p c w' ∧ ∀ choice r w'', M.perform p c choice w' = some (r, w'') →
        allowed w' (.act p c choice) →
          P.inv w'' ∧ P.guarantee p w' w'' ∧ wp P M allowed p (next r) Q w''

end Protocol

section

variable {P : Protocol Pid Call World} {M : Machine Pid Call Ret World Choice Env}
  {allowed : World → Move Pid Call Choice Env → Bool} {p : Pid}

namespace Protocol

theorem Stable.const {c : Prop} : P.Stable M allowed p fun _ => c := fun _ _ _ h => h

theorem Stable.star {A : World → Prop} (hA : P.Stable M allowed p A) {w w' : World}
    (h : Relation.ReflTransGen (P.Interference M allowed p) w w') (hw : P.inv w ∧ A w) : P.inv w' ∧ A w' := by
  induction h with
  | refl => exact hw
  | tail _ hi ih => exact ⟨hi.2.1, hA _ _ hi ih.2⟩

/-- A call is verified under a stable assertion. -/
theorem wp_call {c : Call} {next : Ret c → Script Call Ret α} {Q : α → World → Prop} {A : World → Prop}
    (hA : P.Stable M allowed p A)
    (h : ∀ w, P.inv w → A w → P.pending p c w ∧ ∀ choice r w', M.perform p c choice w = some (r, w') →
      allowed w (.act p c choice) → P.inv w' ∧ P.guarantee p w w' ∧ P.wp M allowed p (next r) Q w')
    {w : World} (hw : P.inv w) (ha : A w) : P.wp M allowed p (.call c next) Q w := by
  intro w' hi
  obtain ⟨hw', ha'⟩ := hA.star hi ⟨hw, ha⟩
  exact h w' hw' ha'

theorem wp_mono {Q R : α → World → Prop} (h : ∀ a w, Q a w → R a w) :
    ∀ {script : Script Call Ret α} {w : World},
    P.wp M allowed p script Q w → P.wp M allowed p script R w
  | .pure _, _, hw => h _ _ hw
  | .call _ _, _, hw => fun w' hi =>
    have ⟨hp, hn⟩ := hw w' hi
    ⟨hp, fun choice r w'' hr ha =>
      have ⟨hinv, hg, hq⟩ := hn choice r w'' hr ha
      ⟨hinv, hg, wp_mono h hq⟩⟩

theorem wp_bind {f : α → Script Call Ret β} {Q : β → World → Prop} :
    ∀ {script : Script Call Ret α} {w : World},
    P.wp M allowed p script (fun a => P.wp M allowed p (f a) Q) w → P.wp M allowed p (script.bind f) Q w
  | .pure _, _, hw => hw
  | .call _ _, _, hw => fun w' hi =>
    have ⟨hp, hn⟩ := hw w' hi
    ⟨hp, fun choice r w'' hr ha =>
      have ⟨hinv, hg, hq⟩ := hn choice r w'' hr ha
      ⟨hinv, hg, wp_bind hq⟩⟩

/-- A script is verified under a stable assertion that each of its calls keeps. -/
theorem wp_calls {ok : Call → Prop} {post : α → Prop} {A : World → Prop} (hA : P.Stable M allowed p A)
    (h : ∀ c w, ok c → P.inv w → A w → P.pending p c w ∧ ∀ choice r w',
      M.perform p c choice w = some (r, w') →
      allowed w (.act p c choice) → P.inv w' ∧ P.guarantee p w w' ∧ A w') :
    ∀ {script : Script Call Ret α} {w : World}, script.Calls ok post → P.inv w → A w →
      P.wp M allowed p script (fun a w' => (P.inv w' ∧ A w') ∧ post a) w
  | .pure _, _, hs, hw, ha => ⟨⟨hw, ha⟩, hs⟩
  | .call c next, _, ⟨hc, hn⟩, hw, ha => wp_call hA (fun w hw ha => by
      obtain ⟨hp, hstep⟩ := h c w hc hw ha
      refine ⟨hp, fun choice r w' hr hal => ?_⟩
      obtain ⟨hinv, hg, ha'⟩ := hstep choice r w' hr hal
      exact ⟨hinv, hg, wp_calls hA h (hn r) hinv ha'⟩) hw ha

/-- A process that is not allowed to make calls is verified. -/
theorem wp_silent {Q : α → World → Prop} (hc : ∀ c w, P.pending p c w)
    (hs : ∀ w c choice, allowed w (.act p c choice) = false) (hQ : ∀ a w, Q a w) :
    ∀ (script : Script Call Ret α) (w : World), P.wp M allowed p script Q w
  | .pure a, w => hQ a w
  | .call c next, _ => fun w' _ => ⟨hc c w', fun choice _ _ _ ha => by simp [hs w' c choice] at ha⟩

/-- What the steps that are not a script's own owe the protocol. -/
structure Surroundings (P : Protocol Pid Call World) (M : Machine Pid Call Ret World Choice Env)
    (allowed : World → Move Pid Call Choice Env → Bool) (program : Pid → Mode → Script Call Ret α)
    (Q : Pid → α → World → Prop) : Prop where
  start : ∀ p mode w w', P.inv w → M.start p w = some w' →
    P.inv w' ∧ P.guarantee p w w' ∧ P.wp M allowed p (program p mode) (Q p) w'
  stop : ∀ p w, P.inv w → P.inv (M.stop p w) ∧ P.guarantee p w (M.stop p w)
  env : ∀ e w w', P.inv w → M.env e w = some w' → allowed w (.env e) → P.inv w'

/-- Surroundings in which what a script leaves stays. -/
structure Environment (P : Protocol Pid Call World) (M : Machine Pid Call Ret World Choice Env)
    (allowed : World → Move Pid Call Choice Env → Bool) (program : Pid → Mode → Script Call Ret α)
    (Q : Pid → α → World → Prop) : Prop extends Surroundings P M allowed program Q where
  stable : ∀ p a, P.Stable M allowed p (Q p a)

/-- A pool that keeps to the protocol in all that its processes have left to do. -/
structure Running (P : Protocol Pid Call World) (M : Machine Pid Call Ret World Choice Env)
    (allowed : World → Move Pid Call Choice Env → Bool) (Q : Pid → α → World → Prop)
    (s : Pool Pid Call Ret World α) : Prop where
  inv : P.inv s.world
  procs : ∀ p c next, s.procs p = some (.call c next) → P.wp M allowed p (.call c next) (Q p) s.world

/-- And what those that have ended have left is there. -/
structure Sound (P : Protocol Pid Call World) (M : Machine Pid Call Ret World Choice Env)
    (allowed : World → Move Pid Call Choice Env → Bool) (Q : Pid → α → World → Prop)
    (s : Pool Pid Call Ret World α) : Prop extends Running P M allowed Q s where
  results : ∀ p a, s.procs p = some (.pure a) → Q p a s.world

section

variable {Q : Pid → α → World → Prop} {s s' : Pool Pid Call Ret World α}

theorem Running.pending (h : P.Running M allowed Q s) {c : Call} {next : Ret c → Script Call Ret α}
    (hp : s.procs p = some (.call c next)) : P.pending p c s.world :=
  (h.procs p c next hp s.world .refl).1

/-- What a call of the pool's does, and leaves to be done. -/
theorem Running.performs (h : P.Running M allowed Q s) {c : Call} {next : Ret c → Script Call Ret α}
    {choice : Choice} {r : Ret c} {w' : World} (hp : s.procs p = some (.call c next))
    (hr : M.perform p c choice s.world = some (r, w')) (ha : allowed s.world (.act p c choice) = true) :
    P.inv w' ∧ P.guarantee p s.world w' ∧ P.wp M allowed p (next r) (Q p) w' :=
  (h.procs p c next hp s.world .refl).2 choice r w' hr ha

theorem Sound.of_wp (hinv : P.inv s.world)
    (h : ∀ p script, s.procs p = some script → P.wp M allowed p script (Q p) s.world) : P.Sound M allowed Q s :=
  ⟨⟨hinv, fun p _ _ hp => h p _ hp⟩, fun p _ hp => h p _ hp⟩

theorem Sound.result (h : P.Sound M allowed Q s) {a : α} (hp : s.procs p = some (.pure a)) :
    Q p a s.world := h.results p a hp

variable [DecidableEq Pid] {program : Pid → Mode → Script Call Ret α}

/-- What one step of a pool is: of a process, under its guarantee, or of the world. -/
theorem Running.moves (hsur : P.Surroundings M allowed program Q) (h : P.Running M allowed Q s)
    (hstep : Step M program allowed s s') :
    P.inv s'.world ∧
      ((∃ q script, P.guarantee q s.world s'.world ∧ s'.procs = Function.update s.procs q script ∧
          ∀ t, script = some t → P.wp M allowed q t (Q q) s'.world) ∨
        (∃ e, M.env e s.world = some s'.world ∧ allowed s.world (.env e) = true) ∧ s'.procs = s.procs) := by
  cases hstep with
  | start mode hp hw =>
    obtain ⟨hinv, hg, hwp⟩ := hsur.start _ mode _ _ h.inv hw
    exact ⟨hinv, .inl ⟨_, _, hg, rfl, fun t ht => by cases ht; exact hwp⟩⟩
  | act hp hw ha =>
    obtain ⟨hinv, hg, hwp⟩ := h.performs hp hw ha
    exact ⟨hinv, .inl ⟨_, _, hg, rfl, fun t ht => by cases ht; exact hwp⟩⟩
  | stop hp =>
    obtain ⟨hinv, hg⟩ := hsur.stop _ _ h.inv
    exact ⟨hinv, .inl ⟨_, _, hg, rfl, fun t ht => by cases ht⟩⟩
  | env hw ha => exact ⟨hsur.env _ _ _ h.inv hw ha, .inr ⟨⟨_, hw, ha⟩, rfl⟩⟩

/-- A step leaves what the others have left to do verified. -/
theorem Running.step (hsur : P.Surroundings M allowed program Q) (h : P.Running M allowed Q s)
    (hstep : Step M program allowed s s') : P.Running M allowed Q s' := by
  obtain ⟨hinv, ⟨q, script, hg, hprocs, hs⟩ | ⟨⟨e, he, ha⟩, hprocs⟩⟩ := h.moves hsur hstep
  · refine ⟨hinv, fun p c next hp => ?_⟩
    rw [hprocs] at hp
    by_cases hpq : p = q
    · subst hpq
      rw [Function.update_self] at hp
      exact hs _ hp
    · rw [Function.update_of_ne hpq] at hp
      exact fun w hi =>
        h.procs p c next hp w (.head ⟨h.inv, hinv, .inl ⟨q, Ne.symm hpq, hg⟩⟩ hi)
  · refine ⟨hinv, fun p c next hp w hi => ?_⟩
    rw [hprocs] at hp
    exact h.procs p c next hp w (.head ⟨h.inv, hinv, .inr ⟨e, he, ha⟩⟩ hi)

/-- A process that ends leaves what it has to. -/
theorem Running.ends (hsur : P.Surroundings M allowed program Q) (h : P.Running M allowed Q s)
    (hstep : Step M program allowed s s') {c : Call} {next : Ret c → Script Call Ret α} {a : α}
    (hp : s.procs p = some (.call c next)) (hend : s'.procs p = some (.pure a)) : Q p a s'.world := by
  obtain ⟨-, ⟨q, script, -, hprocs, hs⟩ | ⟨-, hprocs⟩⟩ := h.moves hsur hstep
  · rw [hprocs] at hend
    by_cases hpq : p = q
    · subst hpq
      rw [Function.update_self] at hend
      exact hs _ hend
    · rw [Function.update_of_ne hpq, hp] at hend
      cases hend
  · rw [hprocs, hp] at hend
    cases hend

/-- A run keeps a pool to the protocol. -/
theorem Running.run (hsur : P.Surroundings M allowed program Q) (h : P.Running M allowed Q s)
    (hrun : Relation.ReflTransGen (Step M program allowed) s s') : P.Running M allowed Q s' := by
  induction hrun with
  | refl => exact h
  | tail _ hstep ih => exact ih.step hsur hstep

theorem running (hsur : P.Surroundings M allowed program Q) {w : World} (hw : P.inv w)
    (h : Reachable M program allowed w s) : P.Running M allowed Q s :=
  Running.run hsur ⟨hw, fun _ _ _ hp => by cases hp⟩ h

theorem Sound.step (henv : P.Environment M allowed program Q) (h : P.Sound M allowed Q s)
    (hstep : Step M program allowed s s') : P.Sound M allowed Q s' := by
  refine ⟨h.toRunning.step henv.toSurroundings hstep, fun p a hp => ?_⟩
  obtain ⟨hinv, ⟨q, script, hg, hprocs, hs⟩ | ⟨⟨e, he, ha⟩, hprocs⟩⟩ := h.moves henv.toSurroundings hstep
  · rw [hprocs] at hp
    by_cases hpq : p = q
    · subst hpq
      rw [Function.update_self] at hp
      exact hs _ hp
    · rw [Function.update_of_ne hpq] at hp
      exact henv.stable p a _ _ ⟨h.inv, hinv, .inl ⟨q, Ne.symm hpq, hg⟩⟩ (h.results p a hp)
  · rw [hprocs] at hp
    exact henv.stable p a _ _ ⟨h.inv, hinv, .inr ⟨e, he, ha⟩⟩ (h.results p a hp)

/-- **Soundness.** A run keeps a pool to the protocol, and to what its processes leave. -/
theorem Sound.run (henv : P.Environment M allowed program Q) (h : P.Sound M allowed Q s)
    (hrun : Relation.ReflTransGen (Step M program allowed) s s') : P.Sound M allowed Q s' := by
  induction hrun with
  | refl => exact h
  | tail _ hstep ih => exact ih.step henv hstep

theorem sound (henv : P.Environment M allowed program Q) {w : World} (hw : P.inv w)
    (h : Reachable M program allowed w s) : P.Sound M allowed Q s :=
  Sound.run henv ⟨⟨hw, fun _ _ _ hp => by cases hp⟩, fun _ _ hp => by cases hp⟩ h

end

/-! ## One protocol on top of another -/

section

variable {allowed' : World → Move Pid Call Choice Env → Bool} {Q : Pid → α → World → Prop}
  {program : Pid → Mode → Script Call Ret α} [DecidableEq Pid] {s s' : Pool Pid Call Ret World α}

/-- What a protocol grants of a call: it is made when it may be, and keeps to its guarantee. -/
def Granted (P : Protocol Pid Call World) (M : Machine Pid Call Ret World Choice Env) (w : World) :
    Move Pid Call Choice Env → Prop
  | .act p c choice => P.inv w ∧ P.pending p c w ∧
      ∀ r w', M.perform p c choice w = some (r, w') → P.inv w' ∧ P.guarantee p w w'
  | .env _ => True

open Classical in
/-- The runs of a condition in which a protocol grants every call. -/
noncomputable def granting (P : Protocol Pid Call World) (M : Machine Pid Call Ret World Choice Env)
    (allowed : World → Move Pid Call Choice Env → Bool) (w : World) (move : Move Pid Call Choice Env) : Bool :=
  allowed w move && decide (P.Granted M w move)

omit [DecidableEq Pid] in
theorem granting_iff {w : World} {move : Move Pid Call Choice Env} :
    P.granting M allowed w move = true ↔ allowed w move = true ∧ P.Granted M w move := by
  simp [granting]

omit [DecidableEq Pid] in
/-- A running pool's calls are granted. -/
theorem Running.grants (h : P.Running M allowed Q s) {c : Call} {next : Ret c → Script Call Ret α}
    {choice : Choice} (hp : s.procs p = some (.call c next))
    (ha : allowed s.world (.act p c choice) = true) : P.Granted M s.world (.act p c choice) := by
  refine ⟨h.inv, h.pending hp, fun r w' hr => ?_⟩
  obtain ⟨hinv, hg, -⟩ := h.performs hp hr ha
  exact ⟨hinv, hg⟩

/-- A running pool's step is granted. -/
theorem Running.granted (h : P.Running M allowed Q s)
    (hle : ∀ {w move}, allowed' w move = true → allowed w move = true)
    (hstep : Step M program allowed' s s') : Step M program (P.granting M allowed') s s' := by
  cases hstep with
  | start mode hp hw => exact .start mode hp hw
  | act hp hw ha => exact .act hp hw (granting_iff.mpr ⟨ha, h.grants hp (hle ha)⟩)
  | stop hp => exact .stop hp
  | env hw ha => exact .env hw (granting_iff.mpr ⟨ha, trivial⟩)

/-- **Layering.** The runs of a protocol grant every call, so that what is verified
on top of it may take that for granted. -/
theorem granted (hsur : P.Surroundings M allowed program Q)
    (hle : ∀ {w move}, allowed' w move = true → allowed w move = true) {w : World} (hw : P.inv w)
    (h : Reachable M program allowed' w s) : Reachable M program (P.granting M allowed') w s := by
  induction h with
  | refl => exact .refl
  | tail hrun hstep ih =>
    have hrunning : P.Running M allowed Q _ := running hsur hw (hrun.lift id fun _ _ hs => hs.mono hle)
    exact ih.tail (hrunning.granted hle hstep)

end

end Protocol

/-! ## Programs -/

/-- What holds after a program, on return or on an exception. -/
def Outcome (Q : α → σ → World → Prop) (E : ε → σ → World → Prop) (out : Except ε α × σ) (w : World) : Prop :=
  match out with
  | (.ok a, s) => Q a s w
  | (.error e, s) => E e s w

/-- Run from `A`, the program keeps to the protocol, and leaves `Q` when it
returns and `E` when it throws. -/
def Triple (P : Protocol Pid Call World) (M : Machine Pid Call Ret World Choice Env)
    (allowed : World → Move Pid Call Choice Env → Bool) (p : Pid) (A : σ → World → Prop)
    (m : Program Call Ret ε σ α) (Q : α → σ → World → Prop) (E : ε → σ → World → Prop) : Prop :=
  ∀ s w, P.inv w → A s w → P.wp M allowed p (m.script s) (fun out w' => P.inv w' ∧ Outcome Q E out w') w

namespace Triple

variable {A B : σ → World → Prop} {Q R : α → σ → World → Prop} {E F : ε → σ → World → Prop}
  {m : Program Call Ret ε σ α}

theorem pure (a : α) (h : ∀ s w, A s w → Q a s w) :
    Triple P M allowed p A (Pure.pure a : Program Call Ret ε σ α) Q E :=
  fun s w hw ha => ⟨hw, h s w ha⟩

theorem throw (e : ε) (h : ∀ s w, A s w → E e s w) :
    Triple P M allowed p A (MonadExcept.throw e : Program Call Ret ε σ α) Q E :=
  fun s w hw ha => ⟨hw, h s w ha⟩

theorem bind {f : α → Program Call Ret ε σ β} {R : β → σ → World → Prop}
    (h : Triple P M allowed p A m Q E) (hf : ∀ a, Triple P M allowed p (Q a) (f a) R E) :
    Triple P M allowed p A (m >>= f) R E := by
  intro s w hw ha
  refine Protocol.wp_bind (Protocol.wp_mono ?_ (h s w hw ha))
  rintro ⟨out, s'⟩ w' ⟨hw', hout⟩
  cases out with
  | ok a => exact hf a s' w' hw' hout
  | error e => exact ⟨hw', hout⟩

theorem conseq (h : Triple P M allowed p B m R F) (hA : ∀ s w, P.inv w → A s w → B s w)
    (hQ : ∀ a s w, R a s w → Q a s w) (hE : ∀ e s w, F e s w → E e s w) : Triple P M allowed p A m Q E := by
  intro s w hw ha
  refine Protocol.wp_mono ?_ (h s w hw (hA s w hw ha))
  rintro ⟨out, s'⟩ w' ⟨hw', hout⟩
  cases out with
  | ok a => exact ⟨hw', hQ a s' w' hout⟩
  | error e => exact ⟨hw', hE e s' w' hout⟩

theorem pre (h : Triple P M allowed p B m Q E) (hA : ∀ s w, A s w → B s w) : Triple P M allowed p A m Q E :=
  fun s w hw ha => h s w hw (hA s w ha)

theorem post (h : Triple P M allowed p A m R E) (hQ : ∀ a s w, R a s w → Q a s w) :
    Triple P M allowed p A m Q E := conseq h (fun _ _ _ ha => ha) hQ fun _ _ _ he => he

/-- What an assertion says of no world may be used outside of it. -/
theorem extract {c : Prop} (hc : ∀ s w, A s w → c) (h : c → Triple P M allowed p A m Q E) :
    Triple P M allowed p A m Q E :=
  fun s w hw ha => h (hc s w ha) s w hw ha

theorem exists_pre {ι : Type} {B : ι → σ → World → Prop} (h : ∀ i, Triple P M allowed p (B i) m Q E) :
    Triple P M allowed p (fun s w => ∃ i, B i s w) m Q E :=
  fun s w hw ⟨i, hb⟩ => h i s w hw hb

theorem tryCatch {handler : ε → Program Call Ret ε σ α} (h : Triple P M allowed p A m Q F)
    (hc : ∀ e, Triple P M allowed p (F e) (handler e) Q E) :
    Triple P M allowed p A (MonadExcept.tryCatch m handler) Q E := by
  intro s w hw ha
  refine Protocol.wp_bind (Protocol.wp_mono ?_ (h s w hw ha))
  rintro ⟨out, s'⟩ w' ⟨hw', hout⟩
  cases out with
  | ok a => exact ⟨hw', hout⟩
  | error e => exact hc e s' w' hw' hout

theorem foldlM {f : β → α → Program Call Ret ε σ β} {I : β → σ → World → Prop}
    (h : ∀ b a, Triple P M allowed p (I b) (f b a) I E) :
    ∀ (l : List α) (b : β), Triple P M allowed p (I b) (l.foldlM f b) I E
  | [], b => pure b fun _ _ hb => hb
  | a :: l, b => by
    rw [List.foldlM_cons]
    exact bind (h b a) fun b' => foldlM h l b'

theorem get {Q : σ → σ → World → Prop} (h : ∀ s w, A s w → Q s s w) :
    Triple P M allowed p A (MonadState.get : Program Call Ret ε σ σ) Q E :=
  fun s w hw ha => ⟨hw, h s w ha⟩

theorem read {f : σ → Program Call Ret ε σ α}
    (h : ∀ v, Triple P M allowed p (fun s w => v = s ∧ A s w) (f v) Q E) :
    Triple P M allowed p A (MonadState.get >>= f) Q E :=
  bind (get (Q := fun v s w => v = s ∧ A s w) fun _ _ ha => ⟨rfl, ha⟩) h

theorem modify {f : σ → σ} {Q : PUnit → σ → World → Prop} (h : ∀ s w, A s w → Q ⟨⟩ (f s) w) :
    Triple P M allowed p A (modify f : Program Call Ret ε σ PUnit) Q E :=
  fun s w hw ha => ⟨hw, h s w ha⟩

/-- A call, under an assertion that is stable whatever the variables are. -/
theorem make {c : Call} {Q : Ret c → σ → World → Prop} (hA : ∀ s, P.Stable M allowed p (A s))
    (h : ∀ s w, P.inv w → A s w → P.pending p c w ∧ ∀ choice r w', M.perform p c choice w = some (r, w') →
      allowed w (.act p c choice) → P.inv w' ∧ P.guarantee p w w' ∧ Q r s w') :
    Triple P M allowed p A (Program.make c : Program Call Ret ε σ (Ret c)) Q E := by
  intro s w hw ha
  refine Protocol.wp_call (hA s) (fun w hw ha => ?_) hw ha
  obtain ⟨hp, hn⟩ := h s w hw ha
  refine ⟨hp, fun choice r w' hr hal => ?_⟩
  obtain ⟨hinv, hg, hq⟩ := hn choice r w' hr hal
  exact ⟨hinv, hg, hinv, hq⟩

/-- A program whose calls keep an assertion keeps it. -/
theorem calls {ok : Call → Prop} {keep : Bool} (hm : m.Calls ok keep) (hA : ∀ s, P.Stable M allowed p (A s))
    (hs : keep = false → ∀ s s' w, A s w → A s' w)
    (h : ∀ c s w, ok c → P.inv w → A s w → P.pending p c w ∧ ∀ choice r w',
      M.perform p c choice w = some (r, w') →
      allowed w (.act p c choice) → P.inv w' ∧ P.guarantee p w w' ∧ A s w') :
    Triple P M allowed p A m (fun _ => A) fun _ => A := by
  intro s w hw ha
  refine Protocol.wp_mono ?_ (Protocol.wp_calls (hA s) (fun c w hc => h c s w hc) (hm s) hw ha)
  rintro ⟨out, s'⟩ w' ⟨⟨hw', ha'⟩, hk⟩
  have : A s' w' := by
    cases keep with
    | false => exact hs rfl s s' w' ha'
    | true =>
      obtain rfl : s' = s := hk rfl
      exact ha'
  cases out with
  | ok => exact ⟨hw', this⟩
  | error => exact ⟨hw', this⟩

/-- The script of a verified program. -/
theorem script {Z : Except ε α × σ → World → Prop} (h : Triple P M allowed p A m Q E) {s : σ} {w : World}
    (hw : P.inv w) (ha : A s w) (hZ : ∀ out w', Outcome Q E out w' → Z out w') :
    P.wp M allowed p (m.script s) Z w :=
  Protocol.wp_mono (fun out w' hout => hZ out w' hout.2) (h s w hw ha)

end Triple

end

end CartyxInfra
