/-
Programs given by the calls they make, and many of them running in one world.

A `Script` makes a call and goes on with what the call returns; the call is
atomic, and between two calls anything else may happen. A `Machine` says what
the calls do to a world, where nature picks one of a call's outcomes, and the
runs of a pool of scripts interleave their calls with the world's own moves.
A script may be stopped between any two of its calls.
-/
import Mathlib.Logic.Function.Basic
import Mathlib.Logic.Relation

namespace CartyxInfra

/-- A program that makes calls. -/
inductive Script (Call : Type) (Ret : Call → Type) (α : Type)
  | pure (a : α)
  | call (c : Call) (next : Ret c → Script Call Ret α)

namespace Script

variable {Call : Type} {Ret : Call → Type} {World α β γ : Type}

/-- A script, and what follows its result. -/
def bind : Script Call Ret α → (α → Script Call Ret β) → Script Call Ret β
  | .pure a, f => f a
  | .call c next, f => .call c fun r => (next r).bind f

instance : Monad (Script Call Ret) where
  pure := .pure
  bind := .bind

@[simp] theorem call_bind (c : Call) (next : Ret c → Script Call Ret α) (f : α → Script Call Ret β) :
    (Script.call c next).bind f = .call c fun r => (next r).bind f := rfl

/-- The call that only returns its result. -/
def make (c : Call) : Script Call Ret (Ret c) := .call c .pure

/-- The script alone, its calls answered by a handler as long as that answers. -/
def exec (handle : (c : Call) → World → Option (Ret c × World)) :
    Script Call Ret α → World → Option (α × World)
  | .pure a, w => some (a, w)
  | .call c next, w => (handle c w).bind fun out => (next out.1).exec handle out.2

theorem exec_bind {handle : (c : Call) → World → Option (Ret c × World)} {f : α → Script Call Ret β} :
    ∀ (s : Script Call Ret α) (w : World),
      (s.bind f).exec handle w = (s.exec handle w).bind fun out => (f out.1).exec handle out.2
  | .pure _, _ => rfl
  | .call c next, w => by
    simp only [call_bind, exec, Option.bind_assoc]
    exact congrArg _ (funext fun out => exec_bind (next out.1) out.2)

/-- A handler that answers in every world of a kind, and leaves one, answers
the whole script. -/
theorem exec_total {handle : (c : Call) → World → Option (Ret c × World)} {A : World → Prop}
    (hA : ∀ c w, A w → ∃ r w', handle c w = some (r, w') ∧ A w') :
    ∀ (s : Script Call Ret α) (w : World), A w → ∃ a w', s.exec handle w = some (a, w')
  | .pure a, w, _ => ⟨a, w, rfl⟩
  | .call c next, w, hw => by
    obtain ⟨r, w', hr, hw'⟩ := hA c w hw
    obtain ⟨a, w'', ha⟩ := exec_total hA (next r) w' hw'
    exact ⟨a, w'', by simp [exec, hr, ha]⟩

/-- Every call the script can make is of a kind, and so is every result. -/
def Calls (ok : Call → Prop) (post : α → Prop) : Script Call Ret α → Prop
  | .pure a => post a
  | .call c next => ok c ∧ ∀ r, (next r).Calls ok post

theorem Calls.bind {ok : Call → Prop} {post : α → Prop} {post' : β → Prop} {f : α → Script Call Ret β}
    (hf : ∀ a, post a → (f a).Calls ok post') :
    ∀ {s : Script Call Ret α}, s.Calls ok post → (s.bind f).Calls ok post'
  | .pure _, h => hf _ h
  | .call _ _, ⟨hc, h⟩ => ⟨hc, fun r => bind hf (h r)⟩

theorem Calls.mono {ok ok' : Call → Prop} {post post' : α → Prop} (hok : ∀ c, ok c → ok' c)
    (hpost : ∀ a, post a → post' a) : ∀ {s : Script Call Ret α}, s.Calls ok post → s.Calls ok' post'
  | .pure _, h => hpost _ h
  | .call _ _, ⟨hc, h⟩ => ⟨hok _ hc, fun r => mono hok hpost (h r)⟩

end Script

/-- A script with exceptions and local variables. -/
abbrev Program (Call : Type) (Ret : Call → Type) (ε σ α : Type) :=
  ExceptT ε (StateT σ (Script Call Ret)) α

namespace Program

variable {Call : Type} {Ret : Call → Type} {ε σ α : Type}

/-- A call that returns. -/
def make (c : Call) : Program Call Ret ε σ (Ret c) := ExceptT.lift (StateT.lift (Script.make c))

/-- The script of a program, from the values its variables have at first. -/
def script (m : Program Call Ret ε σ α) (s : σ) : Script Call Ret (Except ε α × σ) := m.run s

/-- The program alone, from some values of its variables. -/
def exec {World : Type} (handle : (c : Call) → World → Option (Ret c × World)) (m : Program Call Ret ε σ α)
    (s : σ) (w : World) : Option ((Except ε α × σ) × World) := (m.script s).exec handle w

section

variable {World β : Type} {handle : (c : Call) → World → Option (Ret c × World)} {m : Program Call Ret ε σ α}
  {f : α → Program Call Ret ε σ β} {s s' : σ} {w w' : World}

theorem exec_pure (a : α) : exec handle (pure a : Program Call Ret ε σ α) s w = some ((.ok a, s), w) := rfl

theorem exec_bind {a : α} (h : exec handle m s w = some ((.ok a, s'), w')) :
    exec handle (m >>= f) s w = exec handle (f a) s' w' := by
  refine (Script.exec_bind (m.script s) w).trans ?_
  simp only [exec] at h
  rw [h]
  rfl

/-- A program that goes on has returned first. -/
theorem exec_bind_cases {out : Except ε β × σ} (h : exec handle (m >>= f) s w = some (out, w')) :
    (∃ a s₁ w₁, exec handle m s w = some ((.ok a, s₁), w₁) ∧ exec handle (f a) s₁ w₁ = some (out, w')) ∨
      ∃ e s₁, out = (.error e, s₁) ∧ exec handle m s w = some ((.error e, s₁), w') := by
  have h' := (Script.exec_bind (m.script s) w).symm.trans h
  obtain ⟨⟨⟨result, s₁⟩, w₁⟩, hm, hf⟩ := Option.bind_eq_some_iff.mp h'
  cases result with
  | ok a => exact .inl ⟨a, s₁, w₁, hm, hf⟩
  | error e =>
    cases hf
    exact .inr ⟨e, s₁, rfl, hm⟩

theorem exec_make {c : Call} {r : Ret c} (h : handle c w = some (r, w')) :
    exec handle (make c : Program Call Ret ε σ (Ret c)) s w = some ((.ok r, s), w') := by
  refine (Script.exec_bind (Script.make c) w).trans ?_
  simp only [Script.make, Script.exec, h, Option.bind_some]
  rfl

theorem exec_call_cases {c : Call} {f : Ret c → Program Call Ret ε σ β} {out : Except ε β × σ}
    (h : exec handle (make c >>= f) s w = some (out, w')) :
    ∃ r w₁, handle c w = some (r, w₁) ∧ exec handle (f r) s w₁ = some (out, w') := by
  obtain ⟨⟨r, w₁⟩, hr, hf⟩ := Option.bind_eq_some_iff.mp h
  exact ⟨r, w₁, hr, hf⟩

end

/-! ## The calls a program can make -/

/-- The program only makes calls of a kind; with `keep`, it leaves its variables alone. -/
def Calls (ok : Call → Prop) (keep : Bool) (m : Program Call Ret ε σ α) : Prop :=
  ∀ s, (m.script s).Calls ok fun out => keep = true → out.2 = s

namespace Calls

variable {ok ok' : Call → Prop} {keep : Bool} {β : Type} {m : Program Call Ret ε σ α}

theorem pure (a : α) : Calls ok keep (Pure.pure a : Program Call Ret ε σ α) := fun _ _ => rfl

theorem throw (e : ε) : Calls ok keep (MonadExcept.throw e : Program Call Ret ε σ α) := fun _ _ => rfl

theorem bind {f : α → Program Call Ret ε σ β} (hm : Calls ok keep m) (hf : ∀ a, Calls ok keep (f a)) :
    Calls ok keep (m >>= f) := by
  refine fun s => (hm s).bind fun out hout => ?_
  obtain ⟨result, s'⟩ := out
  cases result with
  | ok a => exact (hf a s').mono (fun _ h => h) fun out' h hk => (h hk).trans (hout hk)
  | error e => exact hout

theorem tryCatch {handler : ε → Program Call Ret ε σ α} (hm : Calls ok keep m)
    (hh : ∀ e, Calls ok keep (handler e)) : Calls ok keep (MonadExcept.tryCatch m handler) := by
  refine fun s => (hm s).bind fun out hout => ?_
  obtain ⟨result, s'⟩ := out
  cases result with
  | ok a => exact hout
  | error e => exact (hh e s').mono (fun _ h => h) fun out' h hk => (h hk).trans (hout hk)

theorem make {c : Call} (hc : ok c) : Calls ok keep (make c : Program Call Ret ε σ (Ret c)) :=
  fun _ => ⟨hc, fun _ _ => rfl⟩

theorem get : Calls ok keep (MonadState.get : Program Call Ret ε σ σ) := fun _ _ => rfl

theorem modify (f : σ → σ) : Calls ok false (modify f : Program Call Ret ε σ PUnit) := fun _ h => by cases h

/-- A program of one kind of calls is a program of a wider one. -/
theorem mono {keep' : Bool} (hm : Calls ok keep m) (hok : ∀ c, ok c → ok' c)
    (hk : keep' = true → keep = true) :
    Calls ok' keep' m := fun s => (hm s).mono hok fun _ h hk' => h (hk hk')

theorem foldlM {f : β → α → Program Call Ret ε σ β} (hf : ∀ b a, Calls ok keep (f b a)) :
    ∀ (l : List α) (b : β), Calls ok keep (l.foldlM f b)
  | [], b => .pure b
  | a :: l, b => by
    rw [List.foldlM_cons]
    exact (hf b a).bind fun b' => foldlM hf l b'

end Calls

end Program

/-! ## Pools -/

/-- What calls do in a world, and what else happens there. -/
structure Machine (Pid Call : Type) (Ret : Call → Type) (World Choice Env : Type) where
  /-- The result of a call under nature's choice, when that is an outcome the call can have. -/
  perform : Pid → (c : Call) → Choice → World → Option (Ret c × World)
  /-- A script starts, when it can. -/
  start : Pid → World → Option World
  /-- A script has ended or is killed. -/
  stop : Pid → World → World
  /-- A move of the world's own, when it can be made. -/
  env : Env → World → Option World

/-- The world and the scripts running in it. -/
structure Pool (Pid Call : Type) (Ret : Call → Type) (World α : Type) where
  world : World
  procs : Pid → Option (Script Call Ret α)

/-- What a condition on a run's steps can speak of: a call made with an
outcome, or a move of the world's own. -/
inductive Move (Pid Call Choice Env : Type)
  | act (p : Pid) (c : Call) (choice : Choice)
  | env (e : Env)

/-- What can happen next in a pool. -/
inductive Event (Pid Mode Choice Env : Type)
  | start (p : Pid) (mode : Mode)
  | act (p : Pid) (choice : Choice)
  | stop (p : Pid)
  | env (e : Env)

section

variable {Pid Call : Type} {Ret : Call → Type} {World Choice Env Mode α : Type} [DecidableEq Pid]

/-- One step of a pool. A run's steps may be held to a condition. -/
inductive Step (M : Machine Pid Call Ret World Choice Env) (program : Pid → Mode → Script Call Ret α)
    (allowed : World → Move Pid Call Choice Env → Bool) :
    Pool Pid Call Ret World α → Pool Pid Call Ret World α → Prop
  | start {w w' procs p} (mode : Mode) : procs p = none → M.start p w = some w' →
      Step M program allowed ⟨w, procs⟩ ⟨w', Function.update procs p (some (program p mode))⟩
  | act {w w' procs p c next choice r} : procs p = some (.call c next) →
      M.perform p c choice w = some (r, w') → allowed w (.act p c choice) →
      Step M program allowed ⟨w, procs⟩ ⟨w', Function.update procs p (some (next r))⟩
  | stop {w procs p script} : procs p = some script →
      Step M program allowed ⟨w, procs⟩ ⟨M.stop p w, Function.update procs p none⟩
  | env {w w' procs e} : M.env e w = some w' → allowed w (.env e) →
      Step M program allowed ⟨w, procs⟩ ⟨w', procs⟩

/-- A step under a condition is one under a weaker condition. -/
theorem Step.mono {M : Machine Pid Call Ret World Choice Env} {program : Pid → Mode → Script Call Ret α}
    {allowed allowed' : World → Move Pid Call Choice Env → Bool} {s s' : Pool Pid Call Ret World α}
    (h : ∀ {w move}, allowed w move = true → allowed' w move = true) (hstep : Step M program allowed s s') :
    Step M program allowed' s s' := by
  cases hstep with
  | start mode hp hw => exact .start mode hp hw
  | act hp hw ha => exact .act hp hw (h ha)
  | stop hp => exact .stop hp
  | env hw ha => exact .env hw (h ha)

/-- The pools that runs from an empty pool reach. -/
def Reachable (M : Machine Pid Call Ret World Choice Env) (program : Pid → Mode → Script Call Ret α)
    (allowed : World → Move Pid Call Choice Env → Bool) (w : World) (s : Pool Pid Call Ret World α) : Prop :=
  Relation.ReflTransGen (Step M program allowed) ⟨w, fun _ => none⟩ s

/-- A run without a condition on its steps. -/
def always : World → Move Pid Call Choice Env → Bool := fun _ _ => true

/-- The pool after an event, if that can happen. -/
def Pool.step (M : Machine Pid Call Ret World Choice Env) (program : Pid → Mode → Script Call Ret α)
    (allowed : World → Move Pid Call Choice Env → Bool) (s : Pool Pid Call Ret World α) :
    Event Pid Mode Choice Env → Option (Pool Pid Call Ret World α)
  | .start p mode =>
    match s.procs p, M.start p s.world with
    | none, some w => some ⟨w, Function.update s.procs p (some (program p mode))⟩
    | _, _ => none
  | .act p choice =>
    match s.procs p with
    | some (.call c next) =>
      match M.perform p c choice s.world, allowed s.world (.act p c choice) with
      | some (r, w), true => some ⟨w, Function.update s.procs p (some (next r))⟩
      | _, _ => none
    | _ => none
  | .stop p =>
    match s.procs p with
    | some _ => some ⟨M.stop p s.world, Function.update s.procs p none⟩
    | none => none
  | .env e =>
    match M.env e s.world, allowed s.world (.env e) with
    | some w, true => some ⟨w, s.procs⟩
    | _, _ => none

/-- The pool after a list of events, if all of them can happen. -/
def Pool.run (M : Machine Pid Call Ret World Choice Env) (program : Pid → Mode → Script Call Ret α)
    (allowed : World → Move Pid Call Choice Env → Bool) :
    Pool Pid Call Ret World α → List (Event Pid Mode Choice Env) → Option (Pool Pid Call Ret World α)
  | s, [] => some s
  | s, e :: rest => (s.step M program allowed e).bind fun s' => s'.run M program allowed rest

/-- Whether a process waits for a call of a kind. -/
def waitsFor (kind : Call → Bool) : Option (Script Call Ret α) → Bool
  | some (.call c _) => kind c
  | _ => false

omit [DecidableEq Pid] in
theorem waitsFor_iff {kind : Call → Bool} {proc : Option (Script Call Ret α)} :
    waitsFor kind proc = true ↔ ∃ c next, proc = some (.call c next) ∧ kind c = true := by
  unfold waitsFor
  split
  · next c next => exact ⟨fun h => ⟨c, next, rfl, h⟩, fun ⟨_, _, he, h⟩ => by cases he; exact h⟩
  · next h => exact ⟨nofun, fun ⟨c, next, he, _⟩ => absurd he (h c next)⟩

variable {M : Machine Pid Call Ret World Choice Env} {program : Pid → Mode → Script Call Ret α}
  {allowed : World → Move Pid Call Choice Env → Bool}

theorem Pool.step_sound {s s' : Pool Pid Call Ret World α} {e : Event Pid Mode Choice Env}
    (h : s.step M program allowed e = some s') : Step M program allowed s s' := by
  cases e with
  | start p mode =>
    simp only [step] at h
    split at h
    · next hp hw => cases h; exact .start mode hp hw
    · cases h
  | act p choice =>
    simp only [step] at h
    split at h
    · next c next hp =>
      split at h
      · next r w hw ha => cases h; exact .act hp hw ha
      · cases h
    · cases h
  | stop p =>
    simp only [step] at h
    split at h
    · next hp => cases h; exact .stop hp
    · cases h
  | env e =>
    simp only [step] at h
    split at h
    · next hw ha => cases h; exact .env hw ha
    · cases h

theorem Pool.run_sound : ∀ {events : List (Event Pid Mode Choice Env)} {s s' : Pool Pid Call Ret World α},
    s.run M program allowed events = some s' → Relation.ReflTransGen (Step M program allowed) s s'
  | [], _, _, h => by
    cases h
    exact .refl
  | _ :: _, _, _, h => by
    obtain ⟨_, hs, hr⟩ := Option.bind_eq_some_iff.mp h
    exact .head (step_sound hs) (run_sound hr)

/-- A process's calls as they go under a choice for each of them. -/
def Machine.alone (M : Machine Pid Call Ret World Choice Env)
    (allowed : World → Move Pid Call Choice Env → Bool)
    (p : Pid) (choose : Call → World → Choice) (c : Call) (w : World) : Option (Ret c × World) :=
  if allowed w (.act p c (choose c w)) then M.perform p c (choose c w) w else none

theorem Script.exec_reaches {p : Pid} {choose : Call → World → Choice} :
    ∀ {script : Script Call Ret α} {w w' : World} {a : α} {procs : Pid → Option (Script Call Ret α)},
      script.exec (M.alone allowed p choose) w = some (a, w') → procs p = some script →
      Relation.ReflTransGen (Step M program allowed) ⟨w, procs⟩ ⟨w', Function.update procs p (some (.pure a))⟩
  | .pure a, w, w', _, procs, h, hp => by
    cases h
    rw [Function.update_eq_self_iff.mpr hp.symm]
  | .call c next, w, w', a, procs, h, hp => by
    obtain ⟨⟨r, w₁⟩, hr, hn⟩ := Option.bind_eq_some_iff.mp h
    simp only [Machine.alone, Option.ite_none_right_eq_some] at hr
    have hstep : Step M program allowed ⟨w, procs⟩ ⟨w₁, Function.update procs p (some (next r))⟩ :=
      .act hp hr.2 hr.1
    have hrest := exec_reaches hn (Function.update_self p (some (next r)) procs)
    simpa only [Function.update_idem] using hrest.head hstep

end

end CartyxInfra
