/-
Retention policies: what is young is kept, and of each group the newest item
as long as it is recent.

`Stands.prune`: pruning what is left of a history, at times that do not
decrease and with more added in between, leaves what one pruning of the whole
history leaves. A pruning that stops half way does no harm.
-/
import Mathlib.Order.WellFoundedSet
import Mathlib.Data.Set.Finite.Basic

namespace CartyxInfra

/-- A policy over items in groups. Nothing grows younger, and what is newer
than a recent item is recent. -/
structure Retention (α κ T : Type) [Preorder T] where
  newer : α → α → Prop
  group : α → κ
  young : T → α → Prop
  recent : T → α → Prop
  order : IsStrictOrder α newer
  young_of_le : ∀ {t t' a}, t ≤ t' → young t' a → young t a
  recent_of_le : ∀ {t t' a}, t ≤ t' → recent t' a → recent t a
  recent_of_newer : ∀ {t a b}, newer a b → recent t b → recent t a

namespace Retention

variable {α κ T : Type} [Preorder T] {R : Retention α κ T} {t t' : T} {S S' H X N : Set α} {a b : α}

/-- Nothing in the item's group is newer. -/
def Newest (R : Retention α κ T) (S : Set α) (a : α) : Prop :=
  ∀ b ∈ S, R.group b = R.group a → ¬ R.newer b a

/-- An item is kept among others at a time. -/
def Kept (R : Retention α κ T) (t : T) (S : Set α) (a : α) : Prop :=
  R.young t a ∨ R.recent t a ∧ R.Newest S a

/-- What is left of some items at a time. -/
def prune (R : Retention α κ T) (t : T) (S : Set α) : Set α := {a ∈ S | R.Kept t S a}

theorem prune_subset : R.prune t S ⊆ S := fun _ h => h.1

/-- Of less, an item is kept if it is kept of more. -/
theorem Kept.of_subset (hS : S ⊆ S') (h : R.Kept t S' a) : R.Kept t S a :=
  h.imp id fun ⟨hr, hn⟩ => ⟨hr, fun b hb => hn b (hS hb)⟩

theorem Kept.of_le (ht : t ≤ t') (h : R.Kept t' S a) : R.Kept t S a :=
  h.imp (R.young_of_le ht) fun ⟨hr, hn⟩ => ⟨R.recent_of_le ht hr, hn⟩

/-- Above every item is the newest of its group. -/
theorem exists_newest (hS : S.Finite) (hb : b ∈ S) :
    ∃ m ∈ S, R.group m = R.group b ∧ R.Newest S m ∧ (m = b ∨ R.newer m b) := by
  have := R.order
  let U := {a ∈ S | R.group a = R.group b ∧ (a = b ∨ R.newer a b)}
  have hwf : U.WellFoundedOn R.newer := (hS.subset fun _ h => h.1).wellFoundedOn
  obtain ⟨⟨m, hm⟩, -, hmin⟩ := WellFounded.has_min hwf Set.univ ⟨⟨b, hb, rfl, .inl rfl⟩, trivial⟩
  refine ⟨m, hm.1, hm.2.1, fun c hc hg hn => ?_, hm.2.2⟩
  have hcb : R.newer c b := by
    rcases hm.2.2 with rfl | hmb
    · exact hn
    · exact Trans.trans hn hmb
  exact hmin ⟨c, hc, hg.trans hm.2.1, .inr hcb⟩ trivial hn

/-- What a pruning may delete is missed by no later one. -/
theorem prune_between (ht : t ≤ t') (hS : S.Finite) (hX : R.prune t S ⊆ X) (hXS : X ⊆ S) (N : Set α) :
    R.prune t' (X ∪ N) = R.prune t' (S ∪ N) := by
  have := R.order
  have hsub : X ∪ N ⊆ S ∪ N := Set.union_subset_union_left N hXS
  ext a
  constructor
  · rintro ⟨ha, hk⟩
    refine ⟨hsub ha, hk.imp id fun ⟨hr, hn⟩ => ⟨hr, fun b hb hg hba => ?_⟩⟩
    rcases hb with hb | hb
    · obtain ⟨m, hm, hgm, hnew, hmb⟩ := R.exists_newest hS hb
      have hma : R.newer m a := by
        rcases hmb with rfl | hmb
        · exact hba
        · exact Trans.trans hmb hba
      have hkept : R.Kept t S m := .inr ⟨R.recent_of_le ht (R.recent_of_newer hma hr), hnew⟩
      exact hn m (.inl (hX ⟨hm, hkept⟩)) (hgm.trans hg) hma
    · exact hn b (.inr hb) hg hba
  · rintro ⟨ha, hk⟩
    refine ⟨?_, hk.of_subset hsub⟩
    rcases ha with ha | ha
    · exact .inl (hX ⟨ha, (hk.of_subset Set.subset_union_left).of_le ht⟩)
    · exact .inr ha

/-- A repeated pruning deletes nothing more. -/
theorem prune_prune (hS : S.Finite) : R.prune t (R.prune t S) = R.prune t S := by
  have h := R.prune_between (le_refl t) hS subset_rfl R.prune_subset ∅
  simpa using h

/-- From a time on, what is left stands for the whole history: the next
prunings keep the same of both. -/
structure Stands (R : Retention α κ T) (t : T) (S H : Set α) : Prop where
  subset : S ⊆ H
  prune : ∀ t', t ≤ t' → ∀ N, R.prune t' (S ∪ N) = R.prune t' (H ∪ N)

theorem Stands.refl (S : Set α) : R.Stands t S S := ⟨subset_rfl, fun _ _ _ => rfl⟩

theorem Stands.later (ht : t ≤ t') (h : R.Stands t S H) : R.Stands t' S H :=
  ⟨h.subset, fun _ ht' => h.prune _ (ht.trans ht')⟩

theorem Stands.add (h : R.Stands t S H) (N : Set α) : R.Stands t (S ∪ N) (H ∪ N) := by
  refine ⟨Set.union_subset_union_left N h.subset, fun t' ht N' => ?_⟩
  rw [Set.union_assoc, Set.union_assoc]
  exact h.prune t' ht (N ∪ N')

/-- A pruning of what is left, or a part of one. -/
theorem Stands.between (h : R.Stands t S H) (hS : S.Finite) (hX : R.prune t S ⊆ X) (hXS : X ⊆ S) :
    R.Stands t X H :=
  ⟨hXS.trans h.subset, fun t' ht N => (R.prune_between ht hS hX hXS N).trans (h.prune t' ht N)⟩

theorem Stands.prune_eq (h : R.Stands t S H) : R.prune t S = R.prune t H := by
  have := h.prune t (le_refl t) ∅
  simpa using this

end Retention

end CartyxInfra
