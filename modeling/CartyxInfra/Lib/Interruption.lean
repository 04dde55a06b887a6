/-
Scripts that run alone and may be killed between any two of their calls.

`advance` is a script after a number of its calls. `Holds` says what is true
whenever the script waits on a call, where it may be killed, and of what it
returns; it is verified call by call, and kept as the script advances.
-/
import CartyxInfra.Lib.RelyGuarantee

namespace CartyxInfra

variable {Call : Type} {Ret : Call → Type} {World ε σ α β : Type}
  {handle : (c : Call) → World → Ret c × World} {K : Call → World → Prop}

namespace Script

/-- What is left of a script after a number of its calls, and the world then. -/
def advance (handle : (c : Call) → World → Ret c × World) :
    Nat → Script Call Ret α → World → Script Call Ret α × World
  | 0, s, w => (s, w)
  | _ + 1, .pure a, w => (.pure a, w)
  | n + 1, .call c next, w => advance handle n (next (handle c w).1) (handle c w).2

/-- `K` is true wherever the script may be killed, and `Q` where it ends. -/
def Holds (handle : (c : Call) → World → Ret c × World) (K : Call → World → Prop) (Q : α → World → Prop) :
    Script Call Ret α → World → Prop
  | .pure a, w => Q a w
  | .call c next, w => K c w ∧ Holds handle K Q (next (handle c w).1) (handle c w).2

variable {Q : α → World → Prop}

theorem Holds.advance : ∀ {n : Nat} {s : Script Call Ret α} {w : World}, s.Holds handle K Q w →
    (s.advance handle n w).1.Holds handle K Q (s.advance handle n w).2
  | 0, _, _, h => h
  | _ + 1, .pure _, _, h => h
  | n + 1, .call c next, w, h => by
    have hnext : (next (handle c w).1).Holds handle K Q (handle c w).2 := h.2
    exact Holds.advance (n := n) hnext

theorem Holds.bind {f : α → Script Call Ret β} {R : β → World → Prop} : ∀ {s : Script Call Ret α} {w : World},
    s.Holds handle K (fun a w => (f a).Holds handle K R w) w → (s.bind f).Holds handle K R w
  | .pure _, _, h => h
  | .call _ _, _, h => ⟨h.1, Holds.bind h.2⟩

theorem Holds.mono {R : α → World → Prop} (hQ : ∀ a w, Q a w → R a w) : ∀ {s : Script Call Ret α} {w : World},
    s.Holds handle K Q w → s.Holds handle K R w
  | .pure _, _, h => hQ _ _ h
  | .call _ _, _, h => ⟨h.1, Holds.mono hQ h.2⟩

end Script

namespace Program

/-- The program from some values of its variables, with what is true of a result and of an exception. -/
def Holds (handle : (c : Call) → World → Ret c × World) (K : Call → World → Prop) (Q : α → σ → World → Prop)
    (E : ε → σ → World → Prop) (m : Program Call Ret ε σ α) (s : σ) (w : World) : Prop :=
  (m.script s).Holds handle K (Outcome Q E) w

namespace Holds

variable {Q : α → σ → World → Prop} {E : ε → σ → World → Prop} {m : Program Call Ret ε σ α} {s : σ}
    {w : World}

theorem pure {a : α} (h : Q a s w) : Holds handle K Q E (Pure.pure a : Program Call Ret ε σ α) s w := h

theorem throw {e : ε} (h : E e s w) :
    Holds handle K Q E (MonadExcept.throw e : Program Call Ret ε σ α) s w := h

theorem make {c : Call} {Q : Ret c → σ → World → Prop} (hK : K c w) (h : Q (handle c w).1 s (handle c w).2) :
    Holds handle K Q E (Program.make c : Program Call Ret ε σ (Ret c)) s w := ⟨hK, h⟩

theorem bind {f : α → Program Call Ret ε σ β} {R : β → σ → World → Prop}
    (h : Holds handle K (fun a s w => Holds handle K R E (f a) s w) E m s w) :
      Holds handle K R E (m >>= f) s w := by
  refine Script.Holds.bind (Script.Holds.mono ?_ h)
  rintro ⟨out, s'⟩ w' hout
  cases out with
  | ok a => exact hout
  | error e => exact hout

theorem mono {R : α → σ → World → Prop} (hQ : ∀ a s w, Q a s w → R a s w) (h : Holds handle K Q E m s w) :
    Holds handle K R E m s w := by
  refine Script.Holds.mono ?_ h
  rintro ⟨out, s'⟩ w' hout
  cases out with
  | ok a => exact hQ a s' w' hout
  | error e => exact hout

end Holds

end Program

end CartyxInfra
