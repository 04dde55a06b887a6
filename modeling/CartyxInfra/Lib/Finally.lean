/-
`try … finally`: the clause runs whatever the body does, and the body's
result or exception stands unless the clause throws.
-/
import CartyxInfra.Lib.RelyGuarantee

namespace CartyxInfra

variable {Pid Call : Type} {Ret : Call → Type} {World Choice Env ε σ α : Type}

/-- `try { body } finally { clause }`. -/
def Program.tryFinally (body : Program Call Ret ε σ α) (clause : Program Call Ret ε σ Unit) :
    Program Call Ret ε σ α := do
  let result ← tryCatch (body >>= fun a => pure (Except.ok a)) fun e => pure (Except.error e)
  clause
  match result with
    | .ok a => pure a
    | .error e => throw e

/-- The clause is verified from what the body leaves either way. -/
theorem Triple.tryFinally {P : Protocol Pid Call World} {M : Machine Pid Call Ret World Choice Env}
    {allowed : World → Move Pid Call Choice Env → Bool} {p : Pid} {A : σ → World → Prop}
    {Q R : α → σ → World → Prop} {E F : ε → σ → World → Prop} {G : ε → σ → World → Prop}
    {body : Program Call Ret ε σ α} {clause : Program Call Ret ε σ Unit}
    (hbody : Triple P M allowed p A body Q E)
    (hok : ∀ a, Triple P M allowed p (Q a) clause (fun _ => R a) G)
    (herror : ∀ e, Triple P M allowed p (E e) clause (fun _ => F e) G)
    (hF : ∀ e s w, F e s w → G e s w) :
    Triple P M allowed p A (Program.tryFinally body clause) R G := by
  let left (result : Except ε α) (s : σ) (w : World) : Prop :=
    match result with
    | .ok a => Q a s w
    | .error e => E e s w
  refine Triple.bind (Q := left) (Triple.tryCatch (Triple.bind hbody fun a => Triple.pure _ fun _ _ h => h)
    fun e => Triple.pure _ fun _ _ h => h) fun result => ?_
  cases result with
  | ok a => exact Triple.bind (hok a) fun _ => Triple.pure a fun _ _ h => h
  | error e => exact Triple.bind (herror e) fun _ => Triple.throw e (hF e)

end CartyxInfra
