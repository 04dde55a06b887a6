/-
Calls that can fail, and the programs that throw what they fail with.

Nature decides whether a call fails, with a text, and whether the write of a
failing call takes effect all the same. A program takes the answer of the call
or throws the text.
-/
import CartyxInfra.Lib.JString
import CartyxInfra.Lib.RelyGuarantee

namespace CartyxInfra

/-- What a fallible call returns. -/
abbrev Reply (α : Type) := Except JString α

theorem bind_ok {ε α β} {x : Except ε α} {f : α → Except ε β} {y : β} :
    (x >>= f) = .ok y ↔ ∃ a, x = .ok a ∧ f a = .ok y := by
  cases x <;> simp [bind, Except.bind]

theorem bind_error {ε α β} {x : Except ε α} {f : α → Except ε β} {e : ε} :
    (x >>= f) = .error e ↔ x = .error e ∨ ∃ a, x = .ok a ∧ f a = .error e := by
  cases x <;> simp [bind, Except.bind]

/-- How nature lets a fallible call go. -/
structure Fallible where
  /-- What the call fails with. -/
  error : Option JString := none
  /-- Whether a failing call takes effect. -/
  applied : Bool := true

namespace Fallible

variable {World α : Type} {choice : Fallible} {w v w' : World}

/-- A call takes effect: it succeeds, or fails all the same. -/
def lands (choice : Fallible) : Bool := choice.error.isNone || choice.applied

/-- The reply to a call that would return `a`. -/
def reply (choice : Fallible) (a : α) : Reply α :=
  match choice.error with
  | none => .ok a
  | some message => .error message

/-- A call that cannot succeed. -/
def refuse (choice : Fallible) (w : World) : Option (Reply α × World) :=
  some (.error (choice.error.getD (JString.utf16 "refused")), w)

/-- A call that takes the world from one to the other. -/
def write (choice : Fallible) (w w' : World) : Option (Reply Unit × World) :=
  some (choice.reply (), if choice.lands then w' else w)

/-- A call that returns `a` and changes nothing. -/
def read (choice : Fallible) (w : World) (a : α) : Option (Reply α × World) := some (choice.reply a, w)

/-- A call that reads what may not be there. -/
def find (choice : Fallible) (w : World) (found : Option α) : Option (Reply α × World) :=
  match found with
  | some a => choice.read w a
  | none => choice.refuse w

theorem reply_ok {a : α} (h : choice.error = none) : choice.reply a = .ok a := by
  simp [reply, h]

theorem lands_ok (h : choice.error = none) : choice.lands = true := by
  simp [lands, h]

theorem read_eq {a : α} {r : Reply α} (h : choice.read w a = some (r, w')) :
    w' = w ∧ (r = .ok a ∨ ∃ message, r = .error message) := by
  simp only [read, reply, Option.some.injEq, Prod.mk.injEq] at h
  obtain ⟨rfl, rfl⟩ := h
  split
  · exact ⟨rfl, .inl rfl⟩
  · exact ⟨rfl, .inr ⟨_, rfl⟩⟩

theorem refuse_eq {r : Reply α} (h : choice.refuse w = some (r, w')) :
    w' = w ∧ ∃ message, r = .error message := by
  simp only [refuse, Option.some.injEq, Prod.mk.injEq] at h
  obtain ⟨rfl, rfl⟩ := h
  exact ⟨rfl, _, rfl⟩

theorem find_eq {found : Option α} {r : Reply α} (h : choice.find w found = some (r, w')) :
    w' = w ∧ ((∃ a, found = some a ∧ r = .ok a) ∨ ∃ message, r = .error message) := by
  cases found with
  | none =>
    obtain ⟨rfl, hr⟩ := refuse_eq h
    exact ⟨rfl, .inr hr⟩
  | some a =>
    obtain ⟨rfl, rfl | hr⟩ := read_eq h
    · exact ⟨rfl, .inl ⟨a, rfl, rfl⟩⟩
    · exact ⟨rfl, .inr hr⟩

/-- A write takes effect and returns or throws, or does nothing and throws. -/
theorem write_cases {r : Reply Unit} (h : choice.write w v = some (r, w')) :
    (choice.lands = true ∧ w' = v ∧ (r = .ok () ∨ ∃ message, r = .error message)) ∨
      (choice.lands = false ∧ w' = w ∧ ∃ message, r = .error message) := by
  simp only [write, Option.some.injEq, Prod.mk.injEq] at h
  obtain ⟨rfl, rfl⟩ := h
  cases herror : choice.error with
  | none => exact .inl ⟨lands_ok herror, by simp [lands, herror], .inl (reply_ok herror)⟩
  | some message =>
    have hreply : choice.reply () = .error message := by simp [reply, herror]
    cases hlands : choice.lands with
    | true => exact .inl ⟨rfl, rfl, .inr ⟨message, hreply⟩⟩
    | false => exact .inr ⟨rfl, rfl, message, hreply⟩

theorem write_ok {r : Reply Unit} (h : choice.error = none) (hw : choice.write w v = some (r, w')) :
    r = .ok () ∧ w' = v := by
  simp only [write, reply_ok h, lands_ok h, if_true, Option.some.injEq, Prod.mk.injEq] at hw
  exact ⟨hw.1.symm, hw.2.symm⟩

theorem write_eq {r : Reply Unit} (h : choice.write w v = some (r, w')) :
    (r = .ok () ∧ w' = v) ∨ (∃ message, r = .error message) ∧ (w' = w ∨ w' = v) := by
  rcases write_cases h with ⟨-, hv, hr | hr⟩ | ⟨-, hw, hr⟩
  · exact .inl ⟨hr, hv⟩
  · exact .inr ⟨hr, .inr hv⟩
  · exact .inr ⟨hr, .inl hw⟩

end Fallible

/-! ## Programs -/

/-- Exceptions that an error of a text is one of. -/
class Throwable (ε : Type) where
  error : JString → ε

instance : Throwable JString := ⟨fun message => message⟩

section

variable {Call : Type} {Ret : Call → Type} {ε σ α : Type} [Throwable ε]

/-- `throw new Error(message)`. -/
def fail (message : JString) : Program Call Ret ε σ α := throw (Throwable.error message)

/-- `if (condition) throw new Error(message)`. -/
def throwIf (condition : Bool) (message : JString) : Program Call Ret ε σ Unit :=
  if condition then fail message else pure ()

/-- The answer of a fallible call. -/
def await : Reply α → Program Call Ret ε σ α
  | .ok a => pure a
  | .error message => fail message

theorem await_cases (r : Reply α) : (∃ a, (await r : Program Call Ret ε σ α) = pure a) ∨
    ∃ message, (await r : Program Call Ret ε σ α) = fail message := by
  cases r with
  | ok a => exact .inl ⟨a, rfl⟩
  | error message => exact .inr ⟨message, rfl⟩

theorem throwIf_false {condition : Bool} {message : JString} (h : condition = false) :
    (throwIf condition message : Program Call Ret ε σ Unit) = pure () := by
  simp [throwIf, h]

namespace Program

variable {World : Type} {handle : (c : Call) → World → Option (Ret c × World)} {condition : Bool}
  {message : JString} {s : σ} {w w' : World}

theorem exec_throwIf {out : Except ε Unit × σ}
    (h : exec handle (throwIf condition message) s w = some (out, w')) : w' = w := by
  unfold throwIf at h
  split at h <;> cases h <;> rfl

/-- A program goes on behind a check, or ends there. -/
theorem exec_throwIf_cases {f : Unit → Program Call Ret ε σ α} {out : Except ε α × σ}
    (h : exec handle (throwIf condition message >>= f) s w = some (out, w')) :
    (condition = false ∧ exec handle (f ()) s w = some (out, w')) ∨ w' = w := by
  cases condition with
  | true =>
    cases h
    exact .inr rfl
  | false => exact .inl ⟨rfl, h⟩

end Program

namespace Program.Calls

variable {ok : Call → Prop} {keep : Bool}

theorem throwIf (condition : Bool) (message : JString) :
    Calls ok keep (throwIf condition message : Program Call Ret ε σ Unit) := by
  unfold CartyxInfra.throwIf
  split
  · exact .throw _
  · exact .pure _

theorem await (r : Reply α) : Calls ok keep (await r : Program Call Ret ε σ α) := by
  cases r with
  | ok a => exact .pure a
  | error message => exact .throw _

end Program.Calls

/-! ## How answers go on -/

section

variable {World : Type} {choice : Fallible} {w v w' : World}

/-- How the answer to a call goes on. -/
def Answers (m : Program Call Ret ε σ α) (Q : α → World → Prop) (E : JString → World → Prop)
    (w : World) : Prop :=
  (∃ a, m = pure a ∧ Q a w) ∨ ∃ message, m = fail message ∧ E message w

theorem await_write {r : Reply Unit} (h : choice.write w v = some (r, w')) :
    ((await r : Program Call Ret ε σ Unit) = pure () ∧ w' = v) ∨
      (∃ message, (await r : Program Call Ret ε σ Unit) = fail message) ∧ (w' = w ∨ w' = v) := by
  rcases Fallible.write_eq h with ⟨rfl, hv⟩ | ⟨⟨message, rfl⟩, hv⟩
  · exact .inl ⟨rfl, hv⟩
  · exact .inr ⟨⟨message, rfl⟩, hv⟩

theorem await_find {found : Option α} {r : Reply α} (h : choice.find w found = some (r, w')) :
    w' = w ∧ ((∃ a, found = some a ∧ (await r : Program Call Ret ε σ α) = pure a) ∨
      ∃ message, (await r : Program Call Ret ε σ α) = fail message) := by
  obtain ⟨hw, ⟨a, ha, rfl⟩ | ⟨message, rfl⟩⟩ := Fallible.find_eq h
  · exact ⟨hw, .inl ⟨a, ha, rfl⟩⟩
  · exact ⟨hw, .inr ⟨message, rfl⟩⟩

end

namespace Triple

variable {Pid World Choice Env : Type} {P : Protocol Pid Call World}
  {M : Machine Pid Call Ret World Choice Env} {allowed : World → Move Pid Call Choice Env → Bool} {p : Pid}
  {A : σ → World → Prop} {E : ε → σ → World → Prop}

/-- A call under a stable assertion, and its answer taken or thrown. -/
theorem answer {c : Call} {next : Ret c → Program Call Ret ε σ α} {Q : α → σ → World → Prop}
    (hA : ∀ s, P.Stable M allowed p (A s))
    (h : ∀ s w, P.inv w → A s w → P.pending p c w ∧ ∀ choice r w', M.perform p c choice w = some (r, w') →
      allowed w (.act p c choice) = true → P.inv w' ∧ P.guarantee p w w' ∧
        Answers (next r) (fun a => Q a s) (fun message => E (Throwable.error message) s) w') :
    Triple P M allowed p A (Program.make c >>= next) Q E := by
  refine Triple.bind (Triple.make (Q := fun r s w =>
    Answers (next r) (fun a => Q a s) (fun message => E (Throwable.error message) s) w) hA h) fun r => ?_
  rintro s w hw (⟨a, hn, hq⟩ | ⟨message, hn, he⟩)
  · rw [hn]
    exact ⟨hw, hq⟩
  · rw [hn]
    exact ⟨hw, he⟩

theorem throwIf {condition : Bool} {message : JString} (hE : ∀ s w, A s w → E (Throwable.error message) s w) :
    Triple P M allowed p A (throwIf condition message) (fun _ s w => A s w ∧ condition = false) E := by
  unfold CartyxInfra.throwIf
  split
  · exact Triple.throw _ hE
  · next hc => exact Triple.pure _ fun _ _ h => ⟨h, by simpa using hc⟩

end Triple

end

end CartyxInfra
