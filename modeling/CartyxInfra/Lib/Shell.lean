/-
Lists of shell commands, and which of them run: what an exit status does
under `set -e`, and which status a pipeline ends with.

A command is given by what it does to a state. The commands of a pipeline
run side by side; here each takes all that the one before it has written,
whatever that one's status is.
-/
import Mathlib.Data.List.Basic

namespace CartyxInfra.Shell

/-- The exit status of a command. -/
abbrev Status := Nat

/-- The options of `set` that decide what runs. -/
structure Options where
  errexit : Bool
  pipefail : Bool

/-- A command of a pipeline: what is piped to it, and what it writes. -/
abbrev Stage (σ : Type) := List UInt8 → σ → Status × List UInt8 × σ

/-- A list of commands; loops are over items of `ι`. -/
inductive Cmd (ι σ : Type)
  | simple (run : σ → Status × σ)
  | pipeline (stages : List (Stage σ))
  | seq (first rest : Cmd ι σ)
  | forIn (items : List ι) (body : ι → Cmd ι σ)

/-- Whether the shell goes on after a command, and the command's status. -/
inductive Flow
  | next (status : Status)
  | exit (status : Status)
  deriving DecidableEq

/-- The status, whether the shell goes on or not. -/
def Flow.status : Flow → Status
  | .next status | .exit status => status

/-- The status of a pipeline: its last command's, or with `pipefail` the last
that is not 0. -/
def Options.pipeStatus (o : Options) (statuses : List Status) : Status :=
  if o.pipefail then ((statuses.filter (· ≠ 0)).getLast?).getD 0 else statuses.getLast?.getD 0

/-- A command that has ended with a status. -/
def Options.ended (o : Options) (status : Status) : Flow :=
  if o.errexit && status ≠ 0 then .exit status else .next status

variable {ι σ : Type}

/-- The commands of a pipeline, each fed with what the one before writes. -/
def pipe : List (Stage σ) → List UInt8 → σ → List Status × σ
  | [], _, s => ([], s)
  | stage :: rest, input, s =>
    let (status, output, s) := stage input s
    let (statuses, s) := pipe rest output s
    (status :: statuses, s)

/-- A loop, from the status of the command before. -/
def loop (body : ι → σ → Flow × σ) : List ι → Status → σ → Flow × σ
  | [], status, s => (.next status, s)
  | item :: items, _, s =>
    match body item s with
    | (.exit status, s) => (.exit status, s)
    | (.next status, s) => loop body items status s

/-- What the shell does with a command. -/
def eval (o : Options) : Cmd ι σ → σ → Flow × σ
  | .simple run, s =>
    let (status, s) := run s
    (o.ended status, s)
  | .pipeline stages, s =>
    let (statuses, s) := pipe stages [] s
    (o.ended (o.pipeStatus statuses), s)
  | .seq first rest, s =>
    match eval o first s with
    | (.exit status, s) => (.exit status, s)
    | (.next _, s) => eval o rest s
  | .forIn items body, s => loop (fun item => eval o (body item)) items 0 s

/-! ## Under `set -e` -/

variable {o : Options}

theorem ended_zero : o.ended 0 = .next 0 := by simp [Options.ended]

theorem ended_failed (ho : o.errexit = true) {status : Status} (h : status ≠ 0) :
    o.ended status = .exit status := by simp [Options.ended, ho, h]

theorem eval_simple (run : σ → Status × σ) (s : σ) :
    eval o (.simple run : Cmd ι σ) s = (o.ended (run s).1, (run s).2) := rfl

theorem eval_pipeline (stages : List (Stage σ)) (s : σ) :
    eval o (.pipeline stages : Cmd ι σ) s =
      (o.ended (o.pipeStatus (pipe stages [] s).1), (pipe stages [] s).2) := rfl

theorem eval_seq_next {first rest : Cmd ι σ} {s s' : σ} {status : Status}
    (h : eval o first s = (.next status, s')) : eval o (.seq first rest) s = eval o rest s' := by
  simp [eval, h]

theorem eval_seq_exit {first rest : Cmd ι σ} {s s' : σ} {status : Status}
    (h : eval o first s = (.exit status, s')) : eval o (.seq first rest) s = (.exit status, s') := by
  simp [eval, h]

/-- A list goes on after a command that succeeds, and ends with one that fails. -/
theorem eval_seq_simple (ho : o.errexit = true) (run : σ → Status × σ) (rest : Cmd ι σ) (s : σ) :
    eval o (.seq (.simple run) rest) s =
      if (run s).1 = 0 then eval o rest (run s).2 else (.exit (run s).1, (run s).2) := by
  split
  · next hs => exact eval_seq_next (by rw [eval_simple, hs, ended_zero])
  · next hs => exact eval_seq_exit (by rw [eval_simple, ended_failed ho hs])

/-- The same after a pipeline, which fails with its own status. -/
theorem eval_seq_pipeline (ho : o.errexit = true) (stages : List (Stage σ)) (rest : Cmd ι σ) (s : σ) :
    eval o (.seq (.pipeline stages) rest) s =
      if o.pipeStatus (pipe stages [] s).1 = 0 then eval o rest (pipe stages [] s).2
      else (.exit (o.pipeStatus (pipe stages [] s).1), (pipe stages [] s).2) := by
  split
  · next hs => exact eval_seq_next (by rw [eval_pipeline, hs, ended_zero])
  · next hs => exact eval_seq_exit (by rw [eval_pipeline, ended_failed ho hs])

theorem pipeStatus_last (h : o.pipefail = false) (statuses : List Status) (last : Status) :
    o.pipeStatus (statuses ++ [last]) = last := by simp [Options.pipeStatus, h]

/-- With `pipefail`, a pipeline succeeds when all of its commands do. -/
theorem pipeStatus_pipefail (h : o.pipefail = true) {statuses : List Status} :
    o.pipeStatus statuses = 0 ↔ ∀ status ∈ statuses, status = 0 := by
  simp only [Options.pipeStatus, h, if_true]
  constructor
  · intro hs
    by_contra hne
    push Not at hne
    obtain ⟨status, hm, h0⟩ := hne
    cases hl : (statuses.filter (· ≠ 0)).getLast? with
    | none =>
      rw [List.getLast?_eq_none_iff, List.filter_eq_nil_iff] at hl
      exact absurd h0 (by simpa using hl status hm)
    | some last =>
      have := List.mem_of_getLast? hl
      simp only [List.mem_filter, decide_eq_true_eq] at this
      rw [hl] at hs
      exact this.2 hs
  · intro hall
    have : statuses.filter (· ≠ 0) = [] := by
      rw [List.filter_eq_nil_iff]
      intro status hm
      simpa using hall status hm
    rw [this]
    rfl

end CartyxInfra.Shell
