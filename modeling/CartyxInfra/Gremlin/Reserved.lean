/-
What the schema registry is reached by: its property keys, its vertex label,
and element identifiers. The positions are those of Gremlin's step
signatures, wider than the ones the policy looks at, so each result here says
how far the policy's check carries: an admitted tree is clear at every
position exactly when it is clear at the positions the check leaves out.
-/
import CartyxInfra.Gremlin.Gate

namespace CartyxInfra.Gremlin

open JString

/-! ## Positions -/

/-- An argument position of a step: the step, its arguments, and an index. -/
abbrev Position := JString → List Value → Nat → Prop

/-- Every instruction of a tree, at any nesting level, with its operator. -/
def EveryInstruction (code : Bytecode) (good : JString → List Value → Prop) : Prop :=
  ∀ depth inner, Nested code depth inner → ∀ instruction ∈ inner.stepInstructions,
    ∀ operator, instruction.operator = some operator → good operator instruction.arguments

/-- No bad string is named at a position, itself or in a predicate there. -/
def Clear (position : Position) (bad : JString → Prop) (code : Bytecode) : Prop :=
  EveryInstruction code fun operator arguments =>
    ∀ index argument, arguments[index]? = some argument → position operator arguments index →
      ∀ text, Names argument text → ¬ bad text

/-- A token of the enum declared under a name. -/
def Value.isToken (declaringClass : JString) : Value → Bool
  | .enum token => token.declaringClass == declaringClass
  | _ => false

/-- A constant of `T`. -/
def Value.isT (constant : JString) : Value → Bool
  | .enum token => token.declaringClass == utf16 "org.apache.tinkerpop.gremlin.structure.T" &&
      token.constant == constant
  | _ => false

/-- `property` with a cardinality before the key. -/
def leadingCardinality : List Value → Bool
  | first :: _ => first.isToken (utf16 "org.apache.tinkerpop.gremlin.structure.VertexProperty$Cardinality")
  | [] => false

/-- The steps all of whose arguments are keys. -/
def VARARG_KEYS : List JString := ["values", "properties", "valueMap", "elementMap"].map utf16

/-- Where a step takes a property key. -/
def KeyPosition : Position := fun operator arguments index =>
  operator ∈ VARARG_KEYS ∨
  operator = utf16 "has" ∧ index = (if arguments.length = 3 then 1 else 0) ∨
  (operator = utf16 "hasNot" ∨ operator = utf16 "by") ∧ index = 0 ∨
  operator = utf16 "property" ∧ index % 2 = (if leadingCardinality arguments then 1 else 0)

/-- Where a step takes a property key and the policy does not look: the keys
of `elementMap`, all keys but two of the other steps that take several, and
the keys of a property's own properties. -/
def UncheckedKey : Position := fun operator arguments index =>
  operator = utf16 "elementMap" ∨
  2 ≤ index ∧ (operator ∈ ["values", "properties", "valueMap"].map utf16 ∨
    operator = utf16 "property" ∧ index % 2 = (if leadingCardinality arguments then 1 else 0))

/-- Where a step takes a label. -/
def LabelPosition : Position := fun operator arguments index =>
  operator ∈ LABEL_STEPS ∨
  operator = utf16 "has" ∧ (arguments.length = 3 ∧ index = 0 ∨
    arguments.length = 2 ∧ index = 1 ∧ ∃ token ∈ arguments[0]?, token.isT (utf16 "label") = true)

/-- Where `has` takes a label. -/
def HasLabelPosition : Position := fun operator arguments index =>
  operator = utf16 "has" ∧ LabelPosition operator arguments index

/-- A key of the schema registry. -/
def RegistryKey (text : JString) : Prop := utf16 "graphSchema" <+: text ∨ utf16 "graphProbe" <+: text

/-- The label of the schema registry. -/
def RegistryLabel (text : JString) : Prop := text = utf16 "GraphSchema"

/-- `V` and `E` without arguments. -/
def NoIdentifier (operator : JString) (arguments : List Value) : Prop :=
  operator = utf16 "V" ∨ operator = utf16 "E" → arguments = []

/-- A `has` on the element's identifier. -/
def ById (operator : JString) (arguments : List Value) : Prop :=
  operator = utf16 "has" ∧ ∃ token ∈ arguments[0]?, token.isT (utf16 "id") = true

/-! ## What the check on strings carries -/

theorem ArgumentOk.names {operator : JString} {index : Nat} {argument : Value} {text : JString}
    (h : ArgumentOk operator index argument) (hn : Names argument text) : StringOk operator index text := by
  induction hn with
  | here =>
    cases h with
    | literal h => simp [Value.literal] at h
    | string h => exact h
  | operand _ ih =>
    cases h with
    | literal h => simp [Value.literal] at h
    | predicate _ h => exact ih h
    | within => next hn => cases hn
  | member hi _ ih =>
    cases h with
    | literal h => simp [Value.literal] at h
    | predicate _ h =>
      cases h
      next h => simp [Value.literal] at h
    | within _ _ h => exact ih (h _ hi)

theorem Admitted.everyInstruction {code : Bytecode} (h : Admitted code) :
    EveryInstruction code fun operator arguments =>
      InstructionOk (.mk (some operator) arguments) operator := by
  intro depth inner hn instruction hi operator ho
  obtain ⟨op, hop⟩ := (h.levels depth inner hn).2.instructions instruction hi
  obtain rfl : op = operator := by simpa [hop.named] using ho
  cases instruction
  cases hop.named
  exact hop

theorem EveryInstruction.and {code : Bytecode} {good good' : JString → List Value → Prop}
    (h : EveryInstruction code good) (h' : EveryInstruction code good') :
    EveryInstruction code fun operator arguments => good operator arguments ∧ good' operator arguments :=
  fun depth inner hn instruction hi operator ho =>
    ⟨h depth inner hn instruction hi operator ho, h' depth inner hn instruction hi operator ho⟩

theorem EveryInstruction.mono {code : Bytecode} {good good' : JString → List Value → Prop}
    (h : EveryInstruction code good)
      (himp : ∀ operator arguments, good operator arguments → good' operator arguments) :
    EveryInstruction code good' :=
  fun depth inner hn instruction hi operator ho => himp _ _ (h depth inner hn instruction hi operator ho)

/-- An admitted tree is clear at a set of positions exactly when it is at
those where the check on strings does not exclude the bad ones. -/
theorem Admitted.clear_iff {code : Bytecode} (h : Admitted code) {position unchecked : Position}
    {bad : JString → Prop}
    (hsub : ∀ operator arguments index, unchecked operator arguments index →
      position operator arguments index)
    (hchecked : ∀ operator arguments index text, position operator arguments index →
      ¬ unchecked operator arguments index → StringOk operator index text → ¬ bad text) :
    Clear position bad code ↔ Clear unchecked bad code := by
  constructor
  · intro hc
    exact hc.mono fun operator arguments hc index argument ha hu => hc index argument ha (hsub _ _ _ hu)
  · intro hc
    refine (hc.and h.everyInstruction).mono
      fun operator arguments ⟨hc, hok⟩ index argument ha hp text hn => ?_
    by_cases hu : unchecked operator arguments index
    · exact hc index argument ha hu text hn
    · exact hchecked operator arguments index text hp hu ((hok.arguments index argument ha).names hn)

theorem ApplicationUser.not_admin {user : Option AuthenticatedUser} (h : ApplicationUser user) :
    admin user = false := by
  obtain ⟨u, rfl, _, hn⟩ := h
  rw [Bool.eq_false_iff, ne_eq, admin_iff]
  rintro ⟨_, ⟨⟩, -, hname⟩
  rcases hn with hn | hn <;> rw [hname] at hn <;> exact absurd hn (by decide)

theorem ApplicationUser.application {user : Option AuthenticatedUser} (h : ApplicationUser user) :
    application user = .ok () := by
  obtain ⟨u, rfl, hanon, hname⟩ := h
  simp only [Gremlin.application, require_ok, hanon, APPLICATION]
  rcases hname with hname | hname <;> simp [hname]

theorem authorize_admitted {tp : TinkerPop} (htp : tp.Documented) {user : Option AuthenticatedUser}
    {code : Bytecode} {aliases : Option Value} {checked : Option Bytecode} (hu : ApplicationUser user)
    (h : authorize tp user (some code) aliases = .ok checked) : Admitted code := by
  obtain ⟨-, -, -, c, hc, hadm⟩ := authorize_ok htp hu.not_admin h
  cases hc
  exact hadm

/-! ## Keys -/

section

variable {tp : TinkerPop} {user : Option AuthenticatedUser} {code : Bytecode} {aliases : Option Value}
  {checked : Option Bytecode}

theorem reservedKey_iff {text : JString} : reservedKey text = true ↔ RegistryKey text := by
  simp [reservedKey, RESERVED_PREFIXES, RegistryKey]

theorem UncheckedKey.keyPosition {operator : JString} {arguments : List Value} {index : Nat}
    (h : UncheckedKey operator arguments index) : KeyPosition operator arguments index := by
  rcases h with rfl | ⟨-, h | h⟩
  · exact .inl (by decide)
  · exact .inl (by revert h; simp [VARARG_KEYS]; tauto)
  · exact .inr (.inr (.inr h))

/-- A key position the policy looks at. -/
theorem KeyPosition.keyStep {operator : JString} {arguments : List Value} {index : Nat}
    (h : KeyPosition operator arguments index) (hu : ¬ UncheckedKey operator arguments index) :
    operator ∈ KEY_STEPS ∧ index ≤ 1 := by
  simp only [UncheckedKey, not_or, not_and] at hu
  obtain ⟨hmap, hu⟩ := hu
  rcases h with h | ⟨rfl, rfl⟩ | ⟨rfl | rfl, rfl⟩ | ⟨rfl, h⟩
  · have hthree : operator ∈ ["values", "properties", "valueMap"].map utf16 := by
      revert h; simp [VARARG_KEYS, hmap]
    refine ⟨?_, ?_⟩
    · revert hthree; simp only [List.map_cons, List.map_nil, List.mem_cons, List.not_mem_nil, or_false]
      rintro (rfl | rfl | rfl) <;> decide
    · by_contra hi
      exact (hu (by omega)).1 hthree
  · exact ⟨by decide, by split <;> omega⟩
  · exact ⟨by decide, by omega⟩
  · exact ⟨by decide, by omega⟩
  · refine ⟨by decide, ?_⟩
    by_contra hi
    exact (hu (by omega)).2 rfl h

/-- **Registry keys.** An accepted tree names no key of the schema registry
exactly when it names none where the policy does not look. -/
theorem registryKeys_iff (htp : tp.Documented) (hu : ApplicationUser user)
    (h : authorize tp user (some code) aliases = .ok checked) :
    Clear KeyPosition RegistryKey code ↔ Clear UncheckedKey RegistryKey code := by
  refine (authorize_admitted htp hu h).clear_iff (fun _ _ _ => UncheckedKey.keyPosition) ?_
  intro operator arguments index text hp hun hok hbad
  obtain ⟨hkey, hi⟩ := hp.keyStep hun
  have := hok.key hkey hi
  rw [reservedKey_iff.mpr hbad] at this
  exact absurd this (by decide)

/-- `V().elementMap("graphSchemaVersion")`. -/
def registryRead : Bytecode :=
  .mk true [] [
    .mk (some (utf16 "V")) [],
    .mk (some (utf16 "elementMap")) [.string (utf16 "graphSchemaVersion")]]

theorem sampleUser_application : ApplicationUser sampleUser := ⟨_, rfl, rfl, .inr rfl⟩

theorem registryKeys_reachable : ¬ ∀ (tp : TinkerPop), tp.Documented →
    ∀ (user : Option AuthenticatedUser) (code : Bytecode) (aliases : Option Value)
      (checked : Option Bytecode),
      ApplicationUser user → authorize tp user (some code) aliases = .ok checked →
      Clear KeyPosition RegistryKey code := by
  intro h
  have hc := h .reference TinkerPop.reference_documented sampleUser registryRead (some gAliases)
    (some registryRead) sampleUser_application rfl
  exact hc 0 registryRead .root _ (.tail _ (.head _)) _ rfl 0 _ rfl (.inl (by decide)) _ .here
    (.inl ⟨utf16 "Version", by decide⟩)

theorem registryKeys_iff_sample :
    Clear KeyPosition RegistryKey sampleCode ↔ Clear UncheckedKey RegistryKey sampleCode :=
  registryKeys_iff TinkerPop.reference_documented sampleUser_application
    (show authorize .reference sampleUser (some sampleCode) (some gAliases) = .ok (some sampleCode) from rfl)

/-! ## The label -/

theorem LabelPosition.labelStep {operator : JString} {arguments : List Value} {index : Nat}
    (h : LabelPosition operator arguments index) (hu : ¬ HasLabelPosition operator arguments index) :
    operator ∈ LABEL_STEPS := by
  rcases h with h | ⟨hhas, h⟩
  · exact h
  · exact absurd ⟨hhas, .inr ⟨hhas, h⟩⟩ hu

/-- **The registry's label.** An accepted tree names the label of the schema
registry exactly when a `has` does. -/
theorem registryLabel_iff (htp : tp.Documented) (hu : ApplicationUser user)
    (h : authorize tp user (some code) aliases = .ok checked) :
    Clear LabelPosition RegistryLabel code ↔ Clear HasLabelPosition RegistryLabel code := by
  refine (authorize_admitted htp hu h).clear_iff (fun _ _ _ hp => hp.2) ?_
  rintro operator arguments index text hp hun hok rfl
  exact hok.label (hp.labelStep hun) (by decide)

/-- `V().has("GraphSchema", "kind", "x")`. -/
def labelLookup : Bytecode :=
  .mk true [] [
    .mk (some (utf16 "V")) [],
    .mk (some (utf16 "has")) [.string (utf16 "GraphSchema"), .string (utf16 "kind"), .string (utf16 "x")]]

theorem registryLabel_reachable : ¬ ∀ (tp : TinkerPop), tp.Documented →
    ∀ (user : Option AuthenticatedUser) (code : Bytecode) (aliases : Option Value)
      (checked : Option Bytecode),
      ApplicationUser user → authorize tp user (some code) aliases = .ok checked →
      Clear LabelPosition RegistryLabel code := by
  intro h
  have hc := h .reference TinkerPop.reference_documented sampleUser labelLookup (some gAliases)
    (some labelLookup) sampleUser_application rfl
  exact hc 0 labelLookup .root _ (.tail _ (.head _)) _ rfl 0 _ rfl (.inr ⟨rfl, .inl ⟨rfl, rfl⟩⟩) _ .here rfl

theorem registryLabel_iff_sample :
    Clear LabelPosition RegistryLabel sampleCode ↔ Clear HasLabelPosition RegistryLabel sampleCode :=
  registryLabel_iff TinkerPop.reference_documented sampleUser_application
    (show authorize .reference sampleUser (some sampleCode) (some gAliases) = .ok (some sampleCode) from rfl)

/-! ## Identifiers -/

/-- **Identifiers.** An accepted tree looks an element up by its identifier
exactly when it has a `has` on `T.id`. -/
theorem identifiers_iff (htp : tp.Documented) (hu : ApplicationUser user)
    (h : authorize tp user (some code) aliases = .ok checked) :
    EveryInstruction code (fun operator arguments =>
      NoIdentifier operator arguments ∧ ¬ ById operator arguments) ↔
      EveryInstruction code fun operator arguments => ¬ ById operator arguments := by
  constructor
  · intro hc
    exact hc.mono fun _ _ h => h.2
  · intro hc
    exact ((authorize_admitted htp hu h).everyInstruction.and hc).mono
      fun _ _ ⟨hok, hid⟩ => ⟨hok.noIdentifiers, hid⟩

/-- `T.id`, as TinkerPop has it: a constant with a body. -/
def tId : EnumToken where
  declaringClass := utf16 "org.apache.tinkerpop.gremlin.structure.T"
  className := utf16 "org.apache.tinkerpop.gremlin.structure.T$2"
  constant := utf16 "id"

/-- `V().has(T.id, 4104)`. -/
def idLookup : Bytecode :=
  .mk true [] [.mk (some (utf16 "V")) [], .mk (some (utf16 "has")) [.enum tId, .long 4104]]

theorem identifiers_reachable : ¬ ∀ (tp : TinkerPop), tp.Documented →
    ∀ (user : Option AuthenticatedUser) (code : Bytecode) (aliases : Option Value)
      (checked : Option Bytecode),
      ApplicationUser user → authorize tp user (some code) aliases = .ok checked →
      EveryInstruction code fun operator arguments =>
        NoIdentifier operator arguments ∧ ¬ ById operator arguments := by
  intro h
  have hc := h .reference TinkerPop.reference_documented sampleUser idLookup (some gAliases)
    (some idLookup) sampleUser_application rfl
  exact (hc 0 idLookup .root _ (.tail _ (.head _)) _ rfl).2 ⟨rfl, _, rfl, by decide⟩

theorem identifiers_iff_sample :
    EveryInstruction sampleCode (fun operator arguments =>
      NoIdentifier operator arguments ∧ ¬ ById operator arguments) ↔
      EveryInstruction sampleCode fun operator arguments => ¬ ById operator arguments :=
  identifiers_iff TinkerPop.reference_documented sampleUser_application
    (show authorize .reference sampleUser (some sampleCode) (some gAliases) = .ok (some sampleCode) from rfl)

end

end CartyxInfra.Gremlin
