/-
Redaction: every run of so many characters of a class is replaced by a mark.

`sub_free`: whatever the text, no such run is left, also none that only the
replacement would bring together. `sub_eq_self`: where there was none, nothing
changes.
-/
import CartyxInfra.Lib.Regex
import Mathlib.Data.List.TakeWhile

namespace CartyxInfra

namespace Regex

variable {α : Type} [DecidableEq α] {n : Nat} {allowed : α → Bool} {mark text : List α} {place : Place α}

/-- So many characters, and no fewer. -/
def exactly (allowed : α → Bool) : Nat → Regex α
  | 0 => empty
  | n + 1 => seq (one allowed) (exactly allowed n)

theorem reads_exactly (allowed : α → Bool) : ∀ n : Nat,
    Reads (exactly allowed n) fun taken => taken.length = n ∧ ∀ c ∈ taken, allowed c = true
  | 0 => by
    intro place stop
    rw [exactly, ends, List.mem_singleton]
    constructor
    · rintro rfl
      exact ⟨[], ⟨rfl, by simp⟩, between_nil.2 rfl⟩
    · rintro ⟨taken, ⟨hlength, -⟩, hbetween⟩
      obtain rfl := List.length_eq_zero_iff.1 hlength
      exact between_nil.1 hbetween
  | n + 1 => by
    intro place stop
    rw [exactly, (reads_one allowed).seq (reads_exactly allowed n) place stop]
    constructor
    · rintro ⟨_, ⟨_, right, ⟨c, hc, rfl⟩, ⟨hlength, hright⟩, rfl⟩, hbetween⟩
      refine ⟨c :: right, ⟨by simp [hlength], ?_⟩, hbetween⟩
      simpa [hc] using hright
    · rintro ⟨taken, ⟨hlength, htaken⟩, hbetween⟩
      cases taken with
      | nil => cases hlength
      | cons c right =>
        simp only [List.mem_cons, forall_eq_or_imp] at htaken
        exact ⟨c :: right, ⟨[c], right, ⟨c, htaken.1, rfl⟩, ⟨Nat.succ.inj hlength, htaken.2⟩, rfl⟩, hbetween⟩

/-- The runs of a positive number of characters, as what is to be replaced. -/
def runs (allowed : α → Bool) (n : Nat) : Pattern α where
  regex := exactly allowed (n + 1)
  consumes := by
    intro place stop hstop
    obtain ⟨taken, ⟨hlength, -⟩, hrest, -⟩ := (reads_exactly allowed (n + 1) place stop).1 hstop
    rw [hrest, List.length_append]
    omega

/-- How many characters of the class a text begins with. -/
def leading (allowed : α → Bool) (text : List α) : Nat := (text.takeWhile allowed).length

/-- Nowhere in a text are there so many of them in a row. -/
def Free (allowed : α → Bool) (n : Nat) : List α → Prop
  | [] => True
  | c :: rest => leading allowed (c :: rest) ≤ n ∧ Free allowed n rest

omit [DecidableEq α] in
theorem leading_cons {c : α} {rest : List α} :
    leading allowed (c :: rest) = if allowed c then leading allowed rest + 1 else 0 := by
  cases hc : allowed c <;> simp [leading, hc]

omit [DecidableEq α] in
theorem le_leading {window : List α} (h : ∀ c ∈ window, allowed c = true) (rest : List α) :
    window.length ≤ leading allowed (window ++ rest) := by
  induction window with
  | nil => exact Nat.zero_le _
  | cons c window ih =>
    have hwindow := ih fun c hc => h c (by simp [hc])
    rw [List.cons_append, leading_cons, if_pos (h c (by simp)), List.length_cons]
    omega

omit [DecidableEq α] in
/-- A text that begins with more begins with a run. -/
theorem lt_leading (h : n < leading allowed text) :
    ∃ window, window <+: text ∧ window.length = n + 1 ∧ ∀ c ∈ window, allowed c = true := by
  refine ⟨(text.takeWhile allowed).take (n + 1), (List.take_prefix ..).trans (List.takeWhile_prefix _), ?_, ?_⟩
  · rw [List.length_take]
    unfold leading at h
    omega
  · intro c hc
    exact List.mem_takeWhile_imp (List.mem_of_mem_take hc)

omit [DecidableEq α] in
/-- What being free of runs is about. -/
theorem free_iff : Free allowed n text ↔
    ∀ window, window <:+: text → window.length = n + 1 → ∃ c ∈ window, allowed c = false := by
  induction text with
  | nil =>
    refine iff_of_true trivial fun window hwindow hlength => ?_
    rw [List.infix_nil.1 hwindow] at hlength
    cases hlength
  | cons c rest ih =>
    rw [Free, ih]
    constructor
    · intro ⟨hleading, hrest⟩ window hwindow hlength
      rcases List.infix_cons_iff.1 hwindow with ⟨post, hpost⟩ | hwindow
      · by_contra hall
        push Not at hall
        have hle := le_leading (fun c hc => by simpa using hall c hc) post
        rw [hpost] at hle
        omega
      · exact hrest window hwindow hlength
    · intro h
      refine ⟨?_, fun window hwindow => h window (List.infix_cons hwindow)⟩
      by_contra hlt
      obtain ⟨window, hbegins, hlength, hall⟩ := lt_leading (Nat.not_le.1 hlt)
      obtain ⟨c', hc', hallowed⟩ := h window hbegins.isInfix hlength
      rw [hall c' hc'] at hallowed
      cases hallowed

/-- Where a text begins with fewer, nothing matches. -/
theorem ends_runs_eq_nil : ends (runs allowed n).regex place = [] ↔ leading allowed place.rest ≤ n := by
  constructor
  · intro hends
    by_contra hlt
    obtain ⟨window, hbegins, hlength, hall⟩ := lt_leading (Nat.not_le.1 hlt)
    exact (reads_exactly allowed (n + 1)).ends_ne_nil.2 ⟨window, ⟨hlength, hall⟩, hbegins⟩ hends
  · intro hle
    by_contra hne
    obtain ⟨taken, ⟨hlength, htaken⟩, rest, hrest⟩ := (reads_exactly allowed (n + 1)).ends_ne_nil.1 hne
    have hle' := le_leading htaken rest
    rw [hrest] at hle'
    omega

omit [DecidableEq α] in
theorem free_mark {rest : List α} (hmark : ∀ c ∈ mark, allowed c = false) (h : Free allowed n rest) :
    Free allowed n (mark ++ rest) := by
  induction mark with
  | nil => exact h
  | cons c mark ih =>
    refine ⟨?_, ih fun c hc => hmark c (by simp [hc])⟩
    rw [leading_cons, hmark c (by simp)]
    exact Nat.zero_le n

/-- Behind a place, a replacement leaves no run, and brings none about with what stands before. -/
theorem subAt_free (hmark : ∀ c ∈ mark, allowed c = false) (hne : mark ≠ []) : ∀ (k : Nat) (place : Place α),
    place.rest.length ≤ k →
    leading allowed ((runs allowed n).subAt mark place) ≤ leading allowed place.rest ∧
      Free allowed n ((runs allowed n).subAt mark place)
  | k, place, hk => by
    cases hmatch : (ends (runs allowed n).regex place).head? with
    | some stop =>
      have hlt := (runs allowed n).consumes place stop (List.mem_of_mem_head? hmatch)
      match k with
      | 0 => omega
      | k + 1 =>
        obtain ⟨-, hfree⟩ := subAt_free hmark hne k stop (by omega)
        rw [Pattern.subAt_match hmatch]
        refine ⟨?_, free_mark hmark hfree⟩
        obtain ⟨c, mark, rfl⟩ := List.exists_cons_of_ne_nil hne
        rw [List.cons_append, leading_cons, hmark c (by simp)]
        exact Nat.zero_le _
    | none =>
      have hends : ends (runs allowed n).regex place = [] := List.head?_eq_none_iff.1 hmatch
      obtain ⟨before, rest⟩ := place
      match rest, k with
      | [], _ =>
        rw [Pattern.subAt_end hends]
        exact ⟨Nat.le_refl _, trivial⟩
      | c :: rest, k + 1 =>
        obtain ⟨hle, hfree⟩ := subAt_free hmark hne k ⟨some c, rest⟩ (by simpa using hk)
        have hleading := ends_runs_eq_nil.1 hends
        have hcons : leading allowed (c :: (runs allowed n).subAt mark ⟨some c, rest⟩) ≤
            leading allowed (c :: rest) := by
          rw [leading_cons, leading_cons]
          split
          · exact Nat.succ_le_succ hle
          · exact Nat.le_refl 0
        rw [Pattern.subAt_step hends]
        exact ⟨hcons, Nat.le_trans hcons hleading, hfree⟩

theorem sub_free (hmark : ∀ c ∈ mark, allowed c = false) (hne : mark ≠ []) (text : List α) :
    Free allowed n ((runs allowed n).sub mark text) :=
  (subAt_free hmark hne text.length ⟨none, text⟩ (Nat.le_refl _)).2

theorem subAt_eq_self : ∀ {rest : List α} {before : Option α}, Free allowed n rest →
    (runs allowed n).subAt mark ⟨before, rest⟩ = rest
  | [], _, _ => Pattern.subAt_end (ends_runs_eq_nil.2 (Nat.zero_le _))
  | c :: rest, before, h => by
    rw [Pattern.subAt_step (ends_runs_eq_nil.2 h.1), subAt_eq_self h.2]

/-- Where there is no run, nothing changes. -/
theorem sub_eq_self (h : Free allowed n text) : (runs allowed n).sub mark text = text := subAt_eq_self h

end Regex

end CartyxInfra
