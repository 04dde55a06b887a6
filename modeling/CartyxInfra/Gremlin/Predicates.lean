/-
Which predicates of the policy's vocabulary an application can use.

Fourteen names are admitted, but TinkerPop makes `between`, `inside` and
`outside` of two comparisons, as an `AndP` or an `OrP`, and the check on a
predicate's class takes `P` and `TextP` alone: the three are refused wherever
they stand (`predicate_accepted_iff`).
-/
import CartyxInfra.Gremlin.DataContent

namespace CartyxInfra.Gremlin

open JString

/-! ## Predicates as TinkerPop makes them -/

/-- The static methods of `P` and `TextP`, by their names. -/
structure Constructors where
  /-- `P.eq(value)` and the other comparisons. -/
  compare : JString → Value → Value
  /-- `TextP.containing(value)` and the others. -/
  text : JString → JString → Value
  /-- `P.within(values)` and `P.without(values)`. -/
  contains : JString → List Value → Value
  /-- `P.between(first, second)` and the others. -/
  range : JString → Value → Value → Value

/-- The predicates of one operand. -/
def COMPARISONS : List JString := ["eq", "neq", "lt", "lte", "gt", "gte"].map utf16

/-- The predicates on texts. -/
def TEXTS : List JString := ["containing", "startingWith", "endingWith"].map utf16

/-- The predicates of a collection. -/
def MEMBERSHIPS : List JString := ["within", "without"].map utf16

/-- The predicates of two bounds, which are built of others. -/
def RANGES : List JString := ["inside", "outside", "between"].map utf16

/-- What TinkerPop documents of them. -/
structure Constructors.Documented (make : Constructors) : Prop where
  compare : ∀ name ∈ COMPARISONS, ∀ v, make.compare name v = .predicate .p (some (some name)) v
  text : ∀ name ∈ TEXTS, ∀ text, make.text name text = .predicate .textP (some (some name)) (.string text)
  contains : ∀ name ∈ MEMBERSHIPS, ∀ items,
    make.contains name items = .predicate .p (some (some name)) (.collection items)
  /-- An `AndP` or an `OrP`. -/
  range : ∀ name ∈ RANGES, ∀ first second, ∃ biPredicate v,
    make.range name first second = .predicate .subclass biPredicate v

/-- The operators of the vocabulary, by how they are made. -/
theorem mem_PREDICATES {name : JString} : name ∈ PREDICATES ↔
    name ∈ COMPARISONS ∨ name ∈ TEXTS ∨ name ∈ MEMBERSHIPS ∨ name ∈ RANGES := by
  have hperm : PREDICATES.Perm (COMPARISONS ++ (TEXTS ++ (MEMBERSHIPS ++ RANGES))) := by decide
  rw [hperm.mem_iff, List.mem_append, List.mem_append, List.mem_append]

/-- A literal the policy accepts as the value of a `has`. -/
inductive Operand : Value → Prop
  | literal : v.literal = true → Operand v
  | string : StringOk (utf16 "has") 1 text → Operand (.string text)
  | enum : (∃ package ∈ ENUM_PACKAGES, package <+: token.className) → Operand (.enum token)

/-- A predicate made under a name, of operands that are accepted. -/
inductive Made (make : Constructors) : JString → Value → Prop
  | compare : name ∈ COMPARISONS → Operand v → Made make name (make.compare name v)
  | text : name ∈ TEXTS → Operand (.string text) → Made make name (make.text name text)
  | contains : name ∈ MEMBERSHIPS → items.length ≤ MAX_COLLECTION → (∀ item ∈ items, Operand item) →
      Made make name (make.contains name items)
  | range : name ∈ RANGES → Operand first → Operand second → Made make name (make.range name first second)

/-- `V().has(key, predicate)`. -/
def lookup (key : JString) (predicate : Value) : Bytecode :=
  .mk true [] [.mk (some (utf16 "V")) [], .mk (some (utf16 "has")) [.string key, predicate]]

variable {tp : TinkerPop} {name key : JString} {predicate : Value} {outer : List Slot}

/-! ## What the check on a predicate finds -/

/-- The check of a value passes, and counts nothing. -/
def Passes (tp : TinkerPop) (v : Value) : Prop :=
  ∀ depth count, outcome (value tp (utf16 "has") 1 v depth count) = .ok count

theorem Operand.passes (tp : TinkerPop) {v : Value} (h : Operand v) : Passes tp v := by
  intro depth count
  cases h with
  | literal h =>
    cases v with
    | null | integer | long | double | float | boolean | date | uuid => simp [value, outcome, Except.map]
    | _ => cases h
  | string h =>
    have hs := stringValue_ok (u := ()).mpr h
    simp [value, hs, outcome, Except.map, bind, Except.bind]
  | enum h =>
    have htoken := require_ok (u := ()).mpr (show (ENUM_PACKAGES.any fun package =>
      package.isPrefixOf _) = true by simpa using h)
    simp [value, htoken, outcome, Except.map, bind, Except.bind]

theorem Operand.single {v : Value} (h : Operand v) : v.single = true := by
  cases h with
  | literal h => cases v <;> first | rfl | cases h
  | string | enum => rfl

theorem members_pass {depth count : Nat} {items : List Value} (h : ∀ item ∈ items, Operand item) :
    members tp (utf16 "has") 1 items depth count = .ok count := by
  induction items with
  | nil => rfl
  | cons item rest ih =>
    obtain ⟨hitem, hrest⟩ := List.forall_mem_cons.mp h
    obtain ⟨v, hv⟩ := outcome_ok.mp (hitem.passes tp depth count)
    simp [members, hv, ih hrest, bind, Except.bind]

theorem passes_predicate {cls : PredicateClass} {v : Value} (hc : cls ≠ .subclass) (hn : name ∈ PREDICATES)
    (hv : v.single = true) (h : Passes tp v) : Passes tp (.predicate cls (some (some name)) v) := by
  intro depth count
  have hname : predicateName cls (some (some name)) = .ok () := predicateName_ok.mpr ⟨hc, name, hn, rfl⟩
  obtain ⟨w, hw⟩ := outcome_ok.mp (h depth count)
  rw [value_predicate hv]
  simp [hname, hw, outcome, Except.map, bind, Except.bind]

theorem passes_contains {items : List Value} (hn : name ∈ PREDICATES) (hlen : items.length ≤ MAX_COLLECTION)
    (h : ∀ item ∈ items, Operand item) :
    Passes tp (.predicate .p (some (some name)) (.collection items)) := by
  intro depth count
  have hname : predicateName .p (some (some name)) = .ok () := predicateName_ok.mpr ⟨nofun, name, hn, rfl⟩
  have hsize := require_ok (u := ()).mpr (decide_eq_true hlen)
  simp [value, hname, hsize, members_pass h, outcome, Except.map, bind, Except.bind]

/-- A predicate that is no range passes. -/
theorem Made.passes {make : Constructors} (hmake : make.Documented) (h : Made make name predicate)
    (hn : name ∉ RANGES) : Passes tp predicate := by
  cases h with
  | compare hm hv =>
    rw [hmake.compare _ hm]
    exact passes_predicate nofun (mem_PREDICATES.mpr (.inl hm)) hv.single (hv.passes tp)
  | text hm hv =>
    rw [hmake.text _ hm]
    exact passes_predicate nofun (mem_PREDICATES.mpr (.inr (.inl hm))) rfl (hv.passes tp)
  | contains hm hlen hitems =>
    rw [hmake.contains _ hm]
    exact passes_contains (mem_PREDICATES.mpr (.inr (.inr (.inl hm)))) hlen hitems
  | range hm => exact absurd hm hn

theorem Made.single {make : Constructors} (hmake : make.Documented) (h : Made make name predicate) :
    predicate.single = true := by
  cases h with
  | compare hm =>
    rw [hmake.compare _ hm]
    rfl
  | text hm =>
    rw [hmake.text _ hm]
    rfl
  | contains hm =>
    rw [hmake.contains _ hm]
    rfl
  | range hm =>
    obtain ⟨biPredicate, v, hv⟩ := hmake.range _ hm _ _
    rw [hv]
    rfl

/-- A range is refused. -/
theorem Made.refused {make : Constructors} (hmake : make.Documented) (h : Made make name predicate)
    (hn : name ∈ RANGES) {operator : JString} {index depth count : Nat} {out : Value × Nat} :
    value tp operator index predicate depth count ≠ .ok out := by
  have hdisjoint : ∀ name ∈ RANGES, name ∉ COMPARISONS ∧ name ∉ TEXTS ∧ name ∉ MEMBERSHIPS := by decide
  obtain ⟨hcompare, htext, hcontains⟩ := hdisjoint name hn
  cases h with
  | compare hm => exact absurd hm hcompare
  | text hm => exact absurd hm htext
  | contains hm => exact absurd hm hcontains
  | range hm =>
    obtain ⟨biPredicate, v, hv⟩ := hmake.range _ hm _ _
    rw [hv]
    cases v <;> simp [value, predicateName, require, bind, Except.bind]

/-! ## Lookups -/

/-- The way to a lookup's predicate. -/
def predicateSlot (key : JString) : Slot where
  exact := true
  source := []
  before := [.mk (some (utf16 "V")) []]
  operator := some (utf16 "has")
  first := [.string key]
  hole := .here
  last := []
  after := []

/-- The way to a lookup's key. -/
def keySlot (predicate : Value) : Slot where
  exact := true
  source := []
  before := [.mk (some (utf16 "V")) []]
  operator := some (utf16 "has")
  first := []
  hole := .here
  last := [predicate]
  after := []

/-- A string that may stand as the key of a `has`. -/
theorem keyOk_iff : StringOk (utf16 "has") 0 key ↔ Storable key ∧ ¬ RegistryKey key := by
  rw [← reservedKey_iff, Bool.not_eq_true]
  constructor
  · intro h
    exact ⟨⟨h.length, h.wellFormed⟩, h.key (by decide) (Nat.zero_le _)⟩
  · rintro ⟨⟨hl, hw⟩, hk⟩
    exact ⟨hl, hw, fun hlabel => absurd hlabel (by decide), fun _ _ => hk⟩

/-- A lookup by a predicate that passes is treated as one by null. -/
theorem lookup_alike (hk : StringOk (utf16 "has") 0 key) (hp : Passes tp predicate)
    (hs : predicate.single = true) : CopiesAlike tp (lookup [] .null) (lookup key predicate) := by
  have hempty : StringOk (utf16 "has") 0 [] :=
    keyOk_iff.mpr ⟨⟨Nat.zero_le _, .nil⟩, fun h => by
      rcases h with h | h <;> exact absurd (List.prefix_nil.mp h) (by decide)⟩
  have hkey : CopiesAlike tp (lookup [] .null) (lookup key .null) :=
    (alike_strings hempty hk).slot (keySlot .null) rfl rfl
  have hpredicate : CopiesAlike tp (lookup key .null) (lookup key predicate) := by
    have halike : Alike tp (utf16 "has") 1 .null predicate := fun depth count => by
      rw [hp depth count]
      simp [value, outcome, Except.map]
    exact halike.slot (predicateSlot key) rfl hs
  exact fun depth count => (hkey depth count).trans (hpredicate depth count)

/-- **Predicates.** Among surroundings that are admitted, the application's
lookup by a key that is not the registry's is accepted exactly when its
predicate is no range, and the key may be stored. -/
theorem predicate_accepted_iff (htp : tp.Documented) {make : Constructors} (hmake : make.Documented)
    {user : Option AuthenticatedUser} (hu : ApplicationUser user) (hm : Made make name predicate)
    (hk : ¬ RegistryKey key) (hroom : Admitted (fill outer (lookup [] .null))) :
    Accepts tp user (some gAliases) (fill outer (lookup key predicate)) ↔ name ∉ RANGES ∧ Storable key := by
  constructor
  · intro h
    rcases accepts_iff.mp h with hop | ⟨-, -, out, hcopy⟩
    · exact absurd (admin_iff.mpr hop) (by simp [hu.not_admin])
    obtain ⟨_, _, _, hlookup⟩ := fill_ok outer hcopy
    obtain ⟨_, _, hkey⟩ := slot_ok (keySlot predicate) rfl hlookup
    simp only [value, bind_ok, stringValue_ok] at hkey
    refine ⟨fun hn => ?_, (keyOk_iff.mp hkey.choose_spec.1).1⟩
    obtain ⟨_, _, hvalue⟩ := slot_ok (predicateSlot key) (hm.single hmake) hlookup
    exact hm.refused hmake hn hvalue
  · rintro ⟨hn, hs⟩
    obtain ⟨out, hout⟩ := (copy_iff htp).mpr hroom
    have hpasses : Passes tp predicate := hm.passes hmake hn
    have halike := lookup_alike (keyOk_iff.mpr ⟨hs, hk⟩) hpasses (hm.single hmake)
    exact accepts_iff.mpr (.inr ⟨hu, rfl, (fill_congr halike outer).ok hout⟩)

/-! ## Constructors that behave as documented -/

/-- Plain predicates, and ranges as conjunctions without a value of their own. -/
def Constructors.reference : Constructors where
  compare name v := .predicate .p (some (some name)) v
  text name text := .predicate .textP (some (some name)) (.string text)
  contains name items := .predicate .p (some (some name)) (.collection items)
  range _ _ _ := .predicate .subclass none .null

theorem Constructors.reference_documented : Constructors.reference.Documented where
  compare _ _ _ := rfl
  text _ _ _ := rfl
  contains _ _ _ := rfl
  range _ _ _ _ := ⟨none, .null, rfl⟩

/-- Room for a lookup in `V().where(...)`. -/
theorem whereSlot_room : Admitted (fill [whereSlot] (lookup [] .null)) :=
  (copy_iff TinkerPop.reference_documented).mp ⟨_, rfl⟩

theorem predicate_accepted_sample :
    Accepts .reference sampleUser (some gAliases) (fill [whereSlot] (lookup (utf16 "rank")
      (Constructors.reference.compare (utf16 "gte") (.integer 3)))) ↔
    utf16 "gte" ∉ RANGES ∧ Storable (utf16 "rank") :=
  predicate_accepted_iff TinkerPop.reference_documented Constructors.reference_documented
    sampleUser_application (.compare (by decide) (.literal rfl))
    (by rw [← reservedKey_iff]; decide) whereSlot_room

/-- `V().where(V().has("rank", P.between(1, 10)))` is refused. -/
theorem predicate_refused : ¬ ∀ (tp : TinkerPop) (make : Constructors) (user : Option AuthenticatedUser)
    (name key : JString) (predicate : Value) (outer : List Slot), tp.Documented → make.Documented →
    ApplicationUser user → Made make name predicate → ¬ RegistryKey key → Storable key →
    Admitted (fill outer (lookup [] .null)) →
      Accepts tp user (some gAliases) (fill outer (lookup key predicate)) := by
  intro h
  obtain ⟨checked, hchecked⟩ := h .reference .reference sampleUser (utf16 "between") (utf16 "rank") _
    [whereSlot] TinkerPop.reference_documented Constructors.reference_documented sampleUser_application
    (.range (by decide) (.literal (v := .integer 1) rfl) (.literal (v := .integer 10) rfl))
    (by rw [← reservedKey_iff]; decide) ⟨by decide, roundTrips_iff.mp (by decide +kernel)⟩ whereSlot_room
  have hno : authorize .reference sampleUser (some (fill [whereSlot] (lookup (utf16 "rank")
      (Constructors.reference.range (utf16 "between") (.integer 1) (.integer 10))))) (some gAliases) =
      .error .authorization := rfl
  exact absurd (hchecked.symm.trans hno) nofun

end CartyxInfra.Gremlin
