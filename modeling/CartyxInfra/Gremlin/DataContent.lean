/-
Whether the policy's decision depends on what an application stores.

The check on strings goes by the step and the index of an argument. A value
of `has` and of a `property` without a cardinality stands at an index where
the key can stand after one, and is then held to the rule for keys: data that
begins as the registry's keys do is refused (`accepts_data_iff`).
-/
import CartyxInfra.Gremlin.Decision

namespace CartyxInfra.Gremlin

open JString

variable {tp : TinkerPop} {user : Option AuthenticatedUser} {aliases : Option Value} {outer : List Slot}
  {slot : Slot} {s t : JString}

/-- Where a step takes a value to store or to compare: `has(key, value)`, the
value a string, or a predicate with the string in it, and
`property(key, value)`, the key after a cardinality or first. -/
inductive DataPosition (slot : Slot) : Prop
  | has : slot.operator = some (utf16 "has") → slot.first.length = 1 → slot.last = [] → DataPosition slot
  | property : slot.operator = some (utf16 "property") → slot.hole = .here →
      slot.first.length = 1 ∨ slot.first.length = 2 → slot.last = [] → DataPosition slot

/-- A tree with a string at a position in it. -/
def withText (outer : List Slot) (slot : Slot) (text : JString) : Bytecode :=
  fill outer (slot.plug (.string text))

/-- What the policy asks of every string. -/
def Storable (text : JString) : Prop := text.length ≤ MAX_STRING ∧ WellFormed text

/-- The policy takes the string for a key, one of the schema registry's. -/
def TakenForKey (slot : Slot) (text : JString) : Prop := slot.first.length ≤ 1 ∧ RegistryKey text

theorem DataPosition.stringOk_iff (h : DataPosition slot) :
    StringOk (slot.operator.getD []) slot.first.length s ↔ Storable s ∧ ¬ TakenForKey slot s := by
  have hstep : slot.operator.getD [] ∈ KEY_STEPS ∧ slot.operator.getD [] ∉ LABEL_STEPS := by
    cases h with
    | has ho | property ho =>
      rw [ho]
      decide
  simp only [TakenForKey, ← reservedKey_iff, not_and, Bool.not_eq_true]
  constructor
  · intro hs
    exact ⟨⟨hs.length, hs.wellFormed⟩, hs.key hstep.1⟩
  · rintro ⟨⟨hl, hw⟩, hk⟩
    exact ⟨hl, hw, fun hlabel => absurd hlabel hstep.2, fun _ => hk⟩

/-- Strings that may stand at an index are treated alike there. -/
theorem alike_strings {operator : JString} {index : Nat} (hs : StringOk operator index s)
    (ht : StringOk operator index t) : Alike tp operator index (.string s) (.string t) := by
  intro depth count
  have hs' : stringValue operator index s = .ok () := stringValue_ok.mpr hs
  have ht' : stringValue operator index t = .ok () := stringValue_ok.mpr ht
  simp [value, hs', ht', outcome, Except.map, bind, Except.bind]

/-- A tree that is accepted with a string is accepted with every other that may stand there. -/
theorem copy_withText (hs : StringOk (slot.operator.getD []) slot.first.length s)
    (ht : StringOk (slot.operator.getD []) slot.first.length t)
    (h : ∃ out, copy tp (withText outer slot s) 0 0 = .ok out) :
    ∃ out, copy tp (withText outer slot t) 0 0 = .ok out := by
  obtain ⟨out, hout⟩ := h
  exact (fill_congr ((alike_strings hs ht).slot _ rfl rfl) outer).ok hout

theorem stringOk_of_copy (h : ∃ out, copy tp (withText outer slot s) 0 0 = .ok out) :
    StringOk (slot.operator.getD []) slot.first.length s := by
  obtain ⟨out, hout⟩ := h
  obtain ⟨_, _, _, hslot⟩ := fill_ok outer hout
  obtain ⟨_, _, hvalue⟩ := slot_ok _ rfl hslot
  simp only [value, bind_ok, stringValue_ok] at hvalue
  exact hvalue.choose_spec.1

/-- **Data content.** The policy decides alike on a tree with one string or
another at a data position exactly when both may be stored there, or neither,
or it does not come to that. -/
theorem accepts_data_iff (htp : tp.Documented) (h : DataPosition slot) :
    (Accepts tp user aliases (withText outer slot s) ↔ Accepts tp user aliases (withText outer slot t)) ↔
      (ApplicationUser user → aliases = some gAliases → Admitted (withText outer slot []) →
        (Storable s ∧ ¬ TakenForKey slot s ↔ Storable t ∧ ¬ TakenForKey slot t)) := by
  have hnil : StringOk (slot.operator.getD []) slot.first.length [] := by
    refine h.stringOk_iff.mpr ⟨⟨Nat.zero_le _, .nil⟩, fun hk => ?_⟩
    rcases hk.2 with hk | hk <;> exact absurd (List.prefix_nil.mp hk) (by decide)
  have hstored : ∀ {s t}, ApplicationUser user → aliases = some gAliases → Admitted (withText outer slot []) →
      (Accepts tp user aliases (withText outer slot s) → Accepts tp user aliases (withText outer slot t)) →
      StringOk (slot.operator.getD []) slot.first.length s →
        StringOk (slot.operator.getD []) slot.first.length t := by
    intro s t happ halias hadm hst hs
    have hs' := accepts_iff.mpr (.inr ⟨happ, halias, copy_withText hnil hs ((copy_iff htp).mpr hadm)⟩)
    rcases accepts_iff.mp (hst hs') with hop | ⟨-, -, hcopy⟩
    · exact absurd (admin_iff.mpr hop) (by simp [happ.not_admin])
    · exact stringOk_of_copy hcopy
  have haccepts : ∀ {s t}, (ApplicationUser user → aliases = some gAliases →
      Admitted (withText outer slot []) → StringOk (slot.operator.getD []) slot.first.length s →
        StringOk (slot.operator.getD []) slot.first.length t) →
      Accepts tp user aliases (withText outer slot s) → Accepts tp user aliases (withText outer slot t) := by
    intro s t hst hs
    refine accepts_iff.mpr ((accepts_iff.mp hs).imp_right fun ⟨happ, halias, hcopy⟩ => ⟨happ, halias, ?_⟩)
    have hs' := stringOk_of_copy hcopy
    have hadm := (copy_iff htp).mp (copy_withText hs' hnil hcopy)
    exact copy_withText hs' (hst happ halias hadm hs') hcopy
  rw [← h.stringOk_iff, ← h.stringOk_iff]
  constructor
  · intro hst happ halias hadm
    exact ⟨hstored happ halias hadm hst.mp, hstored happ halias hadm hst.mpr⟩
  · intro hst
    exact ⟨haccepts fun happ halias hadm => (hst happ halias hadm).mp,
      haccepts fun happ halias hadm => (hst happ halias hadm).mpr⟩

/-- The value of `V().has("title", value)`. -/
def titleSlot : Slot where
  exact := true
  source := []
  before := [.mk (some (utf16 "V")) []]
  operator := some (utf16 "has")
  first := [.string (utf16 "title")]
  hole := .here
  last := []
  after := []

/-- The traversal in `V().where(traversal)`. -/
def whereSlot : Slot where
  exact := true
  source := []
  before := [.mk (some (utf16 "V")) []]
  operator := some (utf16 "where")
  first := []
  hole := .here
  last := []
  after := []

theorem titleSlot_data : DataPosition titleSlot := .has rfl rfl rfl

theorem accepts_data_sample :
    (Accepts .reference sampleUser (some gAliases) (withText [whereSlot] titleSlot (utf16 "notes")) ↔
      Accepts .reference sampleUser (some gAliases) (withText [whereSlot] titleSlot (utf16 "graphs"))) ↔
    (ApplicationUser sampleUser → some gAliases = some gAliases →
      Admitted (withText [whereSlot] titleSlot []) →
      (Storable (utf16 "notes") ∧ ¬ TakenForKey titleSlot (utf16 "notes") ↔
        Storable (utf16 "graphs") ∧ ¬ TakenForKey titleSlot (utf16 "graphs"))) :=
  accepts_data_iff TinkerPop.reference_documented titleSlot_data

/-- `V().has("title", "graphSchemaNotes")` is refused, for what it looks for. -/
theorem accepts_data_dependent : ¬ ∀ (tp : TinkerPop) (user : Option AuthenticatedUser)
    (aliases : Option Value) (outer : List Slot) (slot : Slot) (s t : JString), tp.Documented →
    DataPosition slot → Storable s → Storable t →
      (Accepts tp user aliases (withText outer slot s) ↔
        Accepts tp user aliases (withText outer slot t)) := by
  intro h
  have hiff := h .reference sampleUser (some gAliases) [] titleSlot (utf16 "notes")
    (utf16 "graphSchemaNotes") TinkerPop.reference_documented titleSlot_data
    ⟨by decide, roundTrips_iff.mp (by decide +kernel)⟩
    ⟨by decide, roundTrips_iff.mp (by decide +kernel)⟩
  have hyes : authorize .reference sampleUser (some (withText [] titleSlot (utf16 "notes"))) (some gAliases) =
      .ok (some (withText [] titleSlot (utf16 "notes"))) := rfl
  have hno : authorize .reference sampleUser (some (withText [] titleSlot (utf16 "graphSchemaNotes")))
      (some gAliases) = .error .authorization := rfl
  obtain ⟨checked, hchecked⟩ := hiff.mp ⟨_, hyes⟩
  exact absurd (hchecked.symm.trans hno) nofun

end CartyxInfra.Gremlin
