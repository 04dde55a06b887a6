/-
What a typed deserializer can meet in a request it is handed: the check, said
of the tree rather than of the recursion that walks it.

A typed value is an object with an `@type` or an `@value`. Half of one is
refused like one of an unknown type, so what is left of an accepted tree are
objects of the caller's own names, and values of the listed types.
-/
import CartyxInfra.Gremlin.GraphSONSerializer

namespace CartyxInfra.Gremlin

open JString

/-- An object's members are a type and a value and no others, and the type is a text of the list. -/
def Typed (names : List JString) (values : List Json) : Prop :=
  names.Perm [AT_TYPE, AT_VALUE] ∧ ∃ type ∈ TYPES, Json.field AT_TYPE names values = some (.string type)

/-- Two names with both of two different ones among them are these. -/
theorem perm_pair_of_mem {name name' : JString} (hne : name ≠ name') : ∀ {names : List JString},
    names.length = 2 → name ∈ names → name' ∈ names → names.Perm [name, name']
  | [first, second], _, h, h' => by
    simp only [List.mem_cons, List.not_mem_nil, or_false] at h h'
    rcases h with rfl | rfl <;> rcases h' with rfl | rfl
    · exact absurd rfl hne
    · exact .refl _
    · exact .swap _ _ _
    · exact absurd rfl hne

theorem wellTyped_object_iff {names : List JString} {values : List Json} :
    wellTyped (.object names values) = true ↔ (AT_TYPE ∈ names ∨ AT_VALUE ∈ names → Typed names values) := by
  simp only [wellTyped, List.contains_eq_mem]
  by_cases htyped : AT_TYPE ∈ names ∨ AT_VALUE ∈ names
  · rw [if_pos (by simpa using htyped)]
    simp only [Bool.and_eq_true, beq_iff_eq, decide_eq_true_eq, htyped, forall_const]
    constructor
    · rintro ⟨⟨hlength, hvalue⟩, htype⟩
      split at htype
      · rename_i type hfield
        exact ⟨perm_pair_of_mem (by decide) hlength (Json.mem_of_field hfield) hvalue, type,
          by simpa using htype, hfield⟩
      · cases htype
    · rintro ⟨hperm, type, hmem, hfield⟩
      refine ⟨⟨hperm.length_eq, hperm.mem_iff.2 (by simp)⟩, ?_⟩
      simp only [hfield]
      simpa using hmem
  · rw [if_neg (by simpa using htyped)]
    simp [htyped]

/-- What every node is, said of the objects alone: nothing else is refused for its type. -/
theorem every_wellTyped_iff {tree : Json} : tree.Every (fun node => wellTyped node = true) ↔
    ∀ depth names values, tree.Has depth (.object names values) → AT_TYPE ∈ names ∨ AT_VALUE ∈ names →
      Typed names values := by
  rw [Json.every_iff]
  constructor
  · intro h depth names values hn
    exact wellTyped_object_iff.1 (h depth _ hn)
  · intro h depth node hn
    cases node with
    | object names values => exact wellTyped_object_iff.2 (h depth names values hn)
    | _ => rfl

/-- A request that comes to the typed deserializer has been checked. -/
theorem check_of_structural {jackson : Jackson} {input : JsonText} {tree : Json}
    (h : structural jackson input = true) (hread : jackson.readTree input = .ok tree) :
    (check tree 0 0).isSome = true := by
  unfold structural at h
  rw [hread] at h
  split at h
  · cases h
  · exact h

/-- **The check accepts exactly the trees of at most 2048 nodes, none deeper than 32,
whose typed objects are of a listed type**; so whatever the caller nests its values in,
the typed deserializer meets no other type. -/
theorem check_isSome_iff (tree : Json) :
    ((check tree 0 0).isSome = true ↔
      tree.nodes ≤ 2048 ∧ (∀ depth node, tree.Has depth node → depth ≤ 32) ∧
        ∀ depth names values, tree.Has depth (.object names values) → AT_TYPE ∈ names ∨ AT_VALUE ∈ names →
          Typed names values) ∧
    ∀ jackson input, structural jackson input = true → jackson.readTree input = .ok tree →
      ∀ depth names values, tree.Has depth (.object names values) → AT_TYPE ∈ names ∨ AT_VALUE ∈ names →
        ∃ type ∈ TYPES, Json.field AT_TYPE names values = some (.string type) := by
  have hiff : (check tree 0 0).isSome = true ↔ tree.nodes ≤ 2048 ∧ tree.height ≤ 32 ∧
      tree.Every fun node => wellTyped node = true := by
    simp only [Option.isSome_iff_exists, check_eq_some, Nat.zero_add]
    constructor
    · rintro ⟨_, hh, hn, he, -⟩
      exact ⟨hn, hh, he⟩
    · rintro ⟨hn, hh, he⟩
      exact ⟨_, hh, hn, he, rfl⟩
  refine ⟨by rw [hiff, Json.height_le_iff, every_wellTyped_iff], ?_⟩
  intro jackson input hs hread depth names values hn htyped
  have haccepted := hiff.1 (check_of_structural hs hread)
  exact (every_wellTyped_iff.1 haccepted.2.2 depth names values hn htyped).2

example : check (.array [.object [AT_VALUE, AT_TYPE] [.null, .string (utf16 "g:P")]]) 0 0 = some 4 := by
  decide +kernel

example : check (.array [.object [AT_VALUE, AT_TYPE] [.null, .string (utf16 "g:Lambda")]]) 0 0 = none := by
  decide +kernel

end CartyxInfra.Gremlin
