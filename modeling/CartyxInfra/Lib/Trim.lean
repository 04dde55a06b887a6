/-
Trimming a list at both ends of what is blank.

A list is padded around a core when there are only blanks on either side of
it. `trim` leaves the least core (`trim_length_lt_iff`), and two lists trim to
the same if they have a core in common (`trim_eq_iff`).
-/
import Mathlib.Data.List.DropRight

namespace CartyxInfra

variable {α : Type} {blank : α → Bool} {core text other : List α} {n : Nat}

/-- The text without the blanks on either side. -/
def trim (blank : α → Bool) (text : List α) : List α := (text.dropWhile blank).rdropWhile blank

/-- Only blanks on either side of a core. -/
def Padded (blank : α → Bool) (core text : List α) : Prop :=
  ∃ left right, (∀ a ∈ left, blank a = true) ∧ (∀ a ∈ right, blank a = true) ∧ text = left ++ core ++ right

theorem rdropWhile_append_blank {right : List α} (h : ∀ a ∈ right, blank a = true) :
    (text ++ right).rdropWhile blank = text.rdropWhile blank := by
  rw [List.rdropWhile, List.reverse_append, List.dropWhile_append_of_pos (by simpa using h), List.rdropWhile]

theorem padded_trim : Padded blank (trim blank text) text := by
  refine ⟨text.takeWhile blank, (text.dropWhile blank).rtakeWhile blank,
    fun a ha => List.mem_takeWhile_imp ha, fun a ha => List.mem_rtakeWhile_imp ha, ?_⟩
  rw [trim, List.append_assoc, List.rdropWhile_append_rtakeWhile, List.takeWhile_append_dropWhile]

/-- What is around a core does not matter to `trim`. -/
theorem Padded.trim_eq (h : Padded blank core text) : trim blank text = trim blank core := by
  obtain ⟨left, right, hl, hr, rfl⟩ := h
  rw [trim, List.append_assoc, List.dropWhile_append_of_pos hl, List.dropWhile_append, trim]
  split
  · next hempty =>
    have hcore : core.dropWhile blank = [] := by simpa using hempty
    have hright : right.dropWhile blank = [] := by simpa using hr
    rw [hcore, hright]
  · exact rdropWhile_append_blank hr

theorem trim_length_le : (trim blank text).length ≤ text.length :=
  ((List.rdropWhile_prefix blank _).sublist.trans (List.dropWhile_sublist blank)).length_le

theorem trim_length_lt_iff :
    (trim blank text).length < n ↔ ∃ core, Padded blank core text ∧ core.length < n := by
  constructor
  · intro h
    exact ⟨_, padded_trim, h⟩
  · rintro ⟨core, hpadded, h⟩
    rw [hpadded.trim_eq]
    exact Nat.lt_of_le_of_lt trim_length_le h

theorem trim_eq_iff : trim blank text = trim blank other ↔
    ∃ core, Padded blank core text ∧ Padded blank core other := by
  constructor
  · intro h
    exact ⟨_, padded_trim, h ▸ padded_trim⟩
  · rintro ⟨core, htext, hother⟩
    rw [htext.trim_eq, hother.trim_eq]

end CartyxInfra
