/-
Stable sorting: what the order does not decide stays as it was.
-/
import Mathlib.Data.List.Nodup

namespace CartyxInfra.StableSort

variable {α : Type} {a b : α}

/-- Of two elements one comes first. -/
theorem sublist_or {l : List α} (ha : a ∈ l) (hb : b ∈ l) (hne : a ≠ b) :
    [a, b].Sublist l ∨ [b, a].Sublist l := by
  obtain ⟨l₁, l₂, rfl⟩ := List.append_of_mem ha
  rcases List.mem_append.mp hb with hb | hb
  · exact .inr ((List.singleton_sublist.mpr hb).append (List.singleton_sublist.mpr (List.mem_cons_self ..)))
  · have hb' : b ∈ l₂ := (List.mem_cons.mp hb).resolve_left (Ne.symm hne)
    exact .inl (((List.singleton_sublist.mpr hb').cons_cons a).trans (List.sublist_append_right ..))

theorem not_sublist_swap {l : List α} (hl : l.Nodup) (h : [a, b].Sublist l) : ¬ [b, a].Sublist l := by
  induction l with
  | nil => cases h
  | cons x l ih =>
    intro h'
    obtain ⟨hx, hl⟩ := List.nodup_cons.mp hl
    have hfirst : ∀ {c d : α}, [c, d].Sublist (x :: l) → [c, d].Sublist l ∨ c = x ∧ d ∈ l := by
      intro c d hs
      rcases List.sublist_cons_iff.mp hs with hs | ⟨r, hr, hs⟩
      · exact .inl hs
      · obtain ⟨rfl, rfl⟩ := List.cons.inj hr
        exact .inr ⟨rfl, List.singleton_sublist.mp hs⟩
    rcases hfirst h with h | ⟨ha, hb⟩ <;> rcases hfirst h' with h' | ⟨hb', ha'⟩
    · exact ih hl h h'
    · exact hx (hb' ▸ h.subset (by simp))
    · exact hx (ha ▸ h'.subset (by simp))
    · exact hx (ha ▸ ha')

/-- A sorted list is in order, and in the order it had where the sort leaves the choice. -/
theorem pairwise_mergeSort {le : α → α → Bool} {r : α → α → Prop} {l : List α}
    (htrans : ∀ a b c, le a b = true → le b c = true → le a c = true)
    (htotal : ∀ a b, (le a b || le b a) = true)
    (hl : l.Nodup) (h : l.Pairwise r) :
    (l.mergeSort le).Pairwise fun a b => le a b = true ∧ (le b a = true → r a b) := by
  have hsorted : (l.mergeSort le).Pairwise fun a b => le a b = true := List.pairwise_mergeSort htrans htotal l
  have hnodup : (l.mergeSort le).Nodup := (List.mergeSort_perm ..).nodup_iff.mpr hl
  refine List.pairwise_iff_forall_sublist.mpr fun {a b} hab => ?_
  refine ⟨List.pairwise_iff_forall_sublist.mp hsorted hab, fun hba => ?_⟩
  have ha : a ∈ l := List.mem_mergeSort.mp (hab.subset (by simp))
  have hb : b ∈ l := List.mem_mergeSort.mp (hab.subset (by simp))
  have hne : a ≠ b := by
    have := hab.nodup hnodup
    simpa using this
  rcases sublist_or ha hb hne with hs | hs
  · exact List.pairwise_iff_forall_sublist.mp h hs
  · have hswap := List.pair_sublist_mergeSort htrans htotal hba hs
    exact absurd hswap (not_sublist_swap hnodup hab)

end CartyxInfra.StableSort
