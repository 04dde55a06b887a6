/-
What the policy admits, said of a bytecode tree at once and without the
order of the checks: every nested bytecode keeps its own rules (`LevelOk`),
none is too deep, and the whole tree is not too long. `copy_ok` holds the
validator to it: whatever `copy` returns is the tree it was given, and the
tree is admitted.
-/
import CartyxInfra.Gremlin.Authorizer
import CartyxInfra.Lib.Fallible

namespace CartyxInfra.Gremlin

open JString

/-- A string the policy lets stand at an argument index of a step. -/
structure StringOk (operator : JString) (index : Nat) (text : JString) : Prop where
  length : text.length ≤ MAX_STRING
  wellFormed : WellFormed text
  label : operator ∈ LABEL_STEPS → text ∉ RESERVED_LABELS
  key : operator ∈ KEY_STEPS → index ≤ 1 → reservedKey text = false

/-- The class and the name of a predicate. -/
def PredicateOk (cls : PredicateClass) (name : Option (Option JString)) : Prop :=
  cls ≠ .subclass ∧ ∃ text ∈ PREDICATES, name = some (some text)

/-- A literal of a type that is not inspected further. -/
def Value.literal : Value → Bool
  | .null | .integer _ | .long _ | .double _ | .float _ | .boolean _ | .date _ | .uuid _ _ => true
  | _ => false

/-- An argument the policy lets stand. A bytecode's own rules are
`LevelOk`'s. -/
inductive ArgumentOk (operator : JString) (index : Nat) : Value → Prop
  | literal : argument.literal = true → ArgumentOk operator index argument
  | string : StringOk operator index text → ArgumentOk operator index (.string text)
  | bytecode : ArgumentOk operator index (.bytecode code)
  | enum : (∃ package ∈ ENUM_PACKAGES, package <+: token.className) → ArgumentOk operator index (.enum token)
  | predicate : PredicateOk cls name → ArgumentOk operator index operand →
      ArgumentOk operator index (.predicate cls name operand)
  | within : PredicateOk cls name → items.length ≤ MAX_COLLECTION →
      (∀ item ∈ items, ArgumentOk operator index item) →
      ArgumentOk operator index (.predicate cls name (.collection items))

/-- An instruction the policy lets stand. -/
structure InstructionOk (instruction : Instruction) (operator : JString) : Prop where
  named : instruction.operator = some operator
  vocabulary : operator ∈ STEPS
  noIdentifiers : operator = utf16 "V" ∨ operator = utf16 "E" → instruction.arguments = []
  arguments : ∀ index argument, instruction.arguments[index]? = some argument →
    ArgumentOk operator index argument

/-- One nesting level of an admitted tree. -/
structure LevelOk (code : Bytecode) : Prop where
  exact : code.exact = true
  noSource : code.sourceInstructions = []
  instructions : ∀ instruction ∈ code.stepInstructions, ∃ operator, InstructionOk instruction operator

/-- Every level of a tree that itself stands at `depth`. -/
def LevelsOk (depth : Nat) (code : Bytecode) : Prop :=
  ∀ below inner, Nested code below inner → depth + below ≤ MAX_DEPTH ∧ LevelOk inner

/-- What an argument holds stands one level deeper. -/
def HeldOk (depth : Nat) (argument : Value) : Prop :=
  ∀ code, Holds argument code → LevelsOk (depth + 1) code

/-- A tree the policy admits. -/
structure Admitted (code : Bytecode) : Prop where
  levels : LevelsOk 0 code
  length : code.instructions ≤ MAX_STEPS

/-! ## Reading the checks -/

theorem require_ok {allowed : Bool} {u : Unit} : require allowed = .ok u ↔ allowed = true := by
  cases allowed <;> simp [require]

theorem require_error {allowed : Bool} {e : Thrown} :
    require allowed = .error e ↔ allowed = false ∧ e = .authorization := by
  cases allowed <;> simp [require, eq_comm]

theorem contains_ok {set : List JString} {text : Option JString} {b : Bool} :
    contains set text = .ok b ↔ ∃ s, text = some s ∧ set.contains s = b := by
  cases text <;> simp [contains]

theorem stepAllowed_ok {count : Nat} {operator : Option JString} :
    stepAllowed count operator = .ok true ↔ count ≤ MAX_STEPS ∧ ∃ op ∈ STEPS, operator = some op := by
  unfold stepAllowed
  split
  · next h => simp [contains_ok, h, and_comm]
  · next h => simp [h]

theorem roundTrips_iff {text : JString} : roundTrips text = true ↔ WellFormed text := by
  simp [roundTrips, decodeUtf8_getBytes_iff]

theorem stringValue_ok {operator text : JString} {index : Nat} {u : Unit} :
    stringValue operator index text = .ok u ↔ StringOk operator index text := by
  have key : ∀ {u : Unit}, ((if (KEY_STEPS.contains operator && index ≤ 1) = true
      then require (!reservedKey text) else pure ()) = Except.ok u) ↔
      (operator ∈ KEY_STEPS → index ≤ 1 → reservedKey text = false) := by
    intro u
    split
    · next h => simp_all [require_ok]
    · next h => simp_all [pure, Except.pure]
  simp only [stringValue, bind_ok, require_ok, Bool.and_eq_true, decide_eq_true_eq, roundTrips_iff]
  constructor
  · rintro ⟨_, ⟨hl, hw⟩, h⟩
    split at h
    · next ho =>
      simp only [bind_ok, require_ok, Bool.not_eq_true', List.contains_eq_mem, decide_eq_false_iff_not] at h
      obtain ⟨_, hlabel, h⟩ := h
      exact ⟨hl, hw, fun _ => hlabel, key.mp (by simpa using h)⟩
    · next ho => exact ⟨hl, hw, fun h' => absurd (by simpa using h') ho, key.mp (by simpa using h)⟩
  · rintro ⟨hl, hw, hlabel, hkey⟩
    refine ⟨(), ⟨hl, hw⟩, ?_⟩
    split
    · next ho =>
      simp only [bind_ok, require_ok, Bool.not_eq_true', List.contains_eq_mem, decide_eq_false_iff_not]
      exact ⟨(), hlabel (by simpa using ho), by simpa using key.mpr hkey⟩
    · simpa using key.mpr hkey

theorem predicateName_ok {cls : PredicateClass} {name : Option (Option JString)} {u : Unit} :
    predicateName cls name = .ok u ↔ PredicateOk cls name := by
  have hc : (cls == .p || cls == .textP) = true ↔ cls ≠ .subclass := by cases cls <;> decide
  simp only [predicateName, bind_ok, require_ok, hc, PredicateOk]
  cases name with
  | none => simp
  | some name =>
    simp only [bind_ok, contains_ok, require_ok, Option.some.injEq]
    constructor
    · rintro ⟨_, h, b, ⟨s, rfl, hs⟩, hb⟩
      exact ⟨h, s, by simpa [hb] using hs, rfl⟩
    · rintro ⟨h, s, hs, rfl⟩
      exact ⟨(), h, true, ⟨s, rfl, by simpa using hs⟩, rfl⟩

/-! ## What the validator returns -/

theorem heldOk_of_not_holds {depth : Nat} {argument : Value} (h : ∀ code, ¬ Holds argument code) :
    HeldOk depth argument := fun code hc => absurd hc (h code)

theorem HeldOk.bytecode {depth : Nat} {code : Bytecode} (h : LevelsOk (depth + 1) code) :
    HeldOk depth (.bytecode code) := by
  intro code' hc
  cases hc
  exact h

theorem HeldOk.operand {depth : Nat} {cls name} {operand : Value} (h : HeldOk depth operand)
    (hn : ∀ items, operand ≠ .collection items) : HeldOk depth (.predicate cls name operand) := by
  intro code hc
  cases hc with
  | operand hc => exact h code hc
  | member => exact absurd rfl (hn _)

theorem HeldOk.members {depth : Nat} {cls name} {items : List Value} (h : ∀ item ∈ items, HeldOk depth item) :
    HeldOk depth (.predicate cls name (.collection items)) := by
  intro code hc
  cases hc with
  | operand hc => cases hc
  | member hi hc => exact h _ hi code hc

theorem LevelsOk.mk {depth : Nat} {code : Bytecode} (hd : depth ≤ MAX_DEPTH) (hl : LevelOk code)
    (h : ∀ instruction ∈ code.stepInstructions, ∀ argument ∈ instruction.arguments, HeldOk depth argument) :
    LevelsOk depth code := by
  intro below inner hn
  cases hn with
  | root => exact ⟨hd, hl⟩
  | child hi ha hc hn =>
    obtain ⟨hle, hlev⟩ := h _ hi _ ha _ hc _ _ hn
    exact ⟨by omega, hlev⟩

/-- What the loop over the arguments, the instructions or a collection
leaves of the counter. -/
structure Counted (before added after : Nat) : Prop where
  sum : after = before + added
  bound : before ≤ MAX_STEPS → after ≤ MAX_STEPS

theorem Counted.trans {a b c m n : Nat} (h : Counted a m b) (h' : Counted b n c) : Counted a (m + n) c :=
  ⟨by rw [h'.sum, h.sum, Nat.add_assoc], fun hb => h'.bound (h.bound hb)⟩

section

variable {tp : TinkerPop}

mutual
theorem copy_ok (htp : tp.Documented) : ∀ (code : Bytecode) {depth count : Nat} {checked : Bytecode}
    {count' : Nat}, copy tp code depth count = .ok (checked, count') →
      checked = code ∧ LevelsOk depth code ∧ Counted count code.instructions count'
  | .mk exact source steps, depth, count, checked, count', h => by
    simp only [copy, bind_ok, require_ok, Bool.and_eq_true, decide_eq_true_eq, List.isEmpty_iff] at h
    obtain ⟨_, ⟨⟨rfl, hd⟩, rfl⟩, h⟩ := h
    obtain ⟨rfl, hs, hc⟩ := copySteps_ok htp _ h
    refine ⟨by simp, .mk hd ⟨rfl, rfl, fun i hi => (hs i hi).1⟩ fun i hi => (hs i hi).2, ?_⟩
    simpa only [Bytecode.instructions] using hc

theorem copySteps_ok (htp : tp.Documented) : ∀ (steps : List Instruction) {depth count : Nat}
    {pre : List Instruction} {checked : Bytecode} {count' : Nat},
    copySteps tp steps depth (.mk true [] pre) count = .ok (checked, count') →
      checked = .mk true [] (pre ++ steps) ∧
      (∀ instruction ∈ steps, (∃ operator, InstructionOk instruction operator) ∧
        ∀ argument ∈ instruction.arguments, HeldOk depth argument) ∧
      Counted count (countSteps steps) count'
  | [], depth, count, pre, checked, count', h => by
    simp only [copySteps, Except.ok.injEq, Prod.mk.injEq] at h
    obtain ⟨rfl, rfl⟩ := h
    exact ⟨by simp, by simp, ⟨rfl, id⟩⟩
  | .mk operator arguments :: rest, depth, count, pre, checked, count', h => by
    simp only [copySteps, bind_ok, require_ok] at h
    obtain ⟨b, hb, _, rfl, _, hno, ⟨cs, n⟩, ha, h⟩ := h
    obtain ⟨hle, op, hop, rfl⟩ := stepAllowed_ok.mp hb
    obtain ⟨rfl, hargs, hplain, hheld, hc⟩ := copyArguments_ok htp _ ha
    simp only [Option.getD_some] at h hno hargs
    rw [htp.addStep _ _ _ _ hplain] at h
    obtain ⟨rfl, hrest, hc'⟩ := copySteps_ok htp _ h
    refine ⟨by simp, ?_, ?_⟩
    · intro i hi
      rcases List.mem_cons.mp hi with rfl | hi
      · refine ⟨⟨op, rfl, hop, fun hve => ?_, fun i a h => by simpa using hargs i a h⟩, hheld⟩
        simp only [Instruction.arguments]
        by_contra hne
        rcases hve with rfl | rfl <;> simp [List.length_eq_zero_iff, hne] at hno
      · exact hrest i hi
    · have h1 : Counted count 1 (count + 1) := ⟨rfl, fun _ => hle⟩
      simpa only [countSteps] using (h1.trans hc).trans hc'

theorem copyArguments_ok (htp : tp.Documented) : ∀ (arguments : List Value) {operator : JString}
    {index depth count : Nat} {checked : List Value} {count' : Nat},
    copyArguments tp operator index arguments depth count = .ok (checked, count') →
      checked = arguments ∧
      (∀ i argument, arguments[i]? = some argument → ArgumentOk operator (index + i) argument) ∧
      (∀ argument ∈ arguments, argument.plain = true) ∧
      (∀ argument ∈ arguments, HeldOk depth argument) ∧
      Counted count (countArguments arguments) count'
  | [], _, _, _, _, _, _, h => by
    simp only [copyArguments, Except.ok.injEq, Prod.mk.injEq] at h
    obtain ⟨rfl, rfl⟩ := h
    exact ⟨rfl, by simp, by simp, by simp, ⟨rfl, id⟩⟩
  | argument :: rest, operator, index, depth, count, checked, count', h => by
    simp only [copyArguments, bind_ok, Except.ok.injEq, Prod.mk.injEq] at h
    obtain ⟨⟨c, n⟩, hv, ⟨cs, n'⟩, hr, rfl, rfl⟩ := h
    obtain ⟨rfl, hok, hplain, hheld, hc⟩ := value_ok htp _ hv
    obtain ⟨rfl, hoks, hplains, hhelds, hcs⟩ := copyArguments_ok htp _ hr
    refine ⟨rfl, ?_, ?_, ?_, ?_⟩
    · intro i a ha
      cases i with
      | zero => cases ha; exact hok
      | succ i =>
        have := hoks i a (by simpa using ha)
        rwa [Nat.add_assoc, Nat.add_comm 1 i] at this
    · simp only [List.forall_mem_cons]
      exact ⟨hplain, hplains⟩
    · simp only [List.forall_mem_cons]
      exact ⟨hheld, hhelds⟩
    · simpa only [countArguments] using hc.trans hcs

theorem value_ok (htp : tp.Documented) : ∀ (argument : Value) {operator : JString}
    {index depth count : Nat} {checked : Value} {count' : Nat},
    value tp operator index argument depth count = .ok (checked, count') →
      checked = argument ∧ ArgumentOk operator index argument ∧ argument.plain = true ∧
      HeldOk depth argument ∧ Counted count argument.instructions count'
  | .bytecode code, _, _, depth, count, checked, count', h => by
    simp only [value, bind_ok, Except.ok.injEq, Prod.mk.injEq] at h
    obtain ⟨⟨c, n⟩, hc, rfl, rfl⟩ := h
    obtain ⟨rfl, hl, hn⟩ := copy_ok htp _ hc
    exact ⟨rfl, .bytecode, rfl, .bytecode hl, by simpa only [Value.instructions] using hn⟩
  | .string text, _, _, _, _, _, _, h => by
    simp only [value, bind_ok, stringValue_ok, Except.ok.injEq, Prod.mk.injEq] at h
    obtain ⟨_, hs, rfl, rfl⟩ := h
    exact ⟨rfl, .string hs, rfl, heldOk_of_not_holds nofun, ⟨by simp [Value.instructions], id⟩⟩
  | .predicate cls name operand, _, _, depth, count, checked, count', h => by
    by_cases hi : ∃ items, operand = .collection items
    · obtain ⟨items, rfl⟩ := hi
      simp only [value, bind_ok, predicateName_ok, require_ok, decide_eq_true_eq, Except.ok.injEq,
        Prod.mk.injEq] at h
      obtain ⟨_, hp, _, hlen, n, hm, rfl, rfl⟩ := h
      obtain ⟨hoks, hhelds, hc⟩ := members_ok htp _ hm
      exact ⟨rfl, .within hp hlen hoks, rfl, .members hhelds, by simpa only [Value.instructions] using hc⟩
    · have hne : ∀ items, operand ≠ .collection items := fun items he => hi ⟨items, he⟩
      rw [value] at h
      · simp only [bind_ok, predicateName_ok, Except.ok.injEq, Prod.mk.injEq] at h
        obtain ⟨_, hp, ⟨c, n⟩, hv, rfl, rfl⟩ := h
        obtain ⟨rfl, hok, _, hheld, hc⟩ := value_ok htp _ hv
        refine ⟨rfl, .predicate hp hok, rfl, hheld.operand hne, ?_⟩
        rw [Value.instructions]
        · exact hc
        · exact hne
      · exact hne
  | .enum token, _, _, _, _, _, _, h => by
    simp only [value, bind_ok, require_ok, List.any_eq_true, Except.ok.injEq, Prod.mk.injEq,
      List.isPrefixOf_iff_prefix] at h
    obtain ⟨_, ht, rfl, rfl⟩ := h
    exact ⟨rfl, .enum ht, rfl, heldOk_of_not_holds nofun, ⟨by simp [Value.instructions], id⟩⟩
  | .collection _, _, _, _, _, _, _, h | .map _ _, _, _, _, _, _, _, h | .other _, _, _, _, _, _, _, h => by
    simp [value] at h
  | .null, _, _, _, _, _, _, h | .integer _, _, _, _, _, _, _, h | .long _, _, _, _, _, _, _, h
  | .double _, _, _, _, _, _, _, h | .float _, _, _, _, _, _, _, h | .boolean _, _, _, _, _, _, _, h
  | .date _, _, _, _, _, _, _, h | .uuid _ _, _, _, _, _, _, _, h => by
    simp only [value, Except.ok.injEq, Prod.mk.injEq] at h
    obtain ⟨rfl, rfl⟩ := h
    exact ⟨rfl, .literal rfl, rfl, heldOk_of_not_holds nofun, ⟨by simp [Value.instructions], id⟩⟩

theorem members_ok (htp : tp.Documented) : ∀ (items : List Value) {operator : JString}
    {index depth count count' : Nat},
    members tp operator index items depth count = .ok count' →
      (∀ item ∈ items, ArgumentOk operator index item) ∧ (∀ item ∈ items, HeldOk depth item) ∧
      Counted count (countArguments items) count'
  | [], _, _, _, _, _, h => by
    simp only [members, Except.ok.injEq] at h
    subst h
    exact ⟨by simp, by simp, ⟨rfl, id⟩⟩
  | item :: rest, _, _, depth, count, count', h => by
    simp only [members, bind_ok] at h
    obtain ⟨⟨c, n⟩, hv, hr⟩ := h
    obtain ⟨rfl, hok, _, hheld, hc⟩ := value_ok htp _ hv
    obtain ⟨hoks, hhelds, hcs⟩ := members_ok htp _ hr
    simp only [List.forall_mem_cons]
    exact ⟨⟨hok, hoks⟩, ⟨hheld, hhelds⟩, by simpa only [countArguments] using hc.trans hcs⟩
end

end

end CartyxInfra.Gremlin
