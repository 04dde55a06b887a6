/-
The decision of the policy: the validator returns every tree that is
admitted, so it accepts these and no other (`authorize_iff`).

And how the decision on a tree depends on a value in it, through `Slot`s, the
ways down a tree: `fill_congr`, the values the validator treats alike may
stand for each other, and `fill_ok`, it accepts no tree around one it refuses.
-/
import CartyxInfra.Gremlin.Reserved

namespace CartyxInfra.Gremlin

open JString

variable {tp : TinkerPop} {operator : JString} {index depth count : Nat}

/-! ## Admitted trees are returned -/

theorem ArgumentOk.plain {argument : Value} (h : ArgumentOk operator index argument) :
    argument.plain = true := by
  cases h with
  | literal h => cases argument <;> first | rfl | cases h
  | _ => rfl

theorem ArgumentOk.ofCollection {cls : PredicateClass} {name : Option (Option JString)} {items : List Value}
    (h : ArgumentOk operator index (.predicate cls name (.collection items))) :
    PredicateOk cls name ∧ items.length ≤ MAX_COLLECTION ∧
      ∀ item ∈ items, ArgumentOk operator index item := by
  cases h with
  | literal h => cases h
  | predicate _ h =>
    cases h
    next h => cases h
  | within hp hlen hoks => exact ⟨hp, hlen, hoks⟩

theorem ArgumentOk.ofPredicate {cls : PredicateClass} {name : Option (Option JString)} {operand : Value}
    (h : ArgumentOk operator index (.predicate cls name operand))
    (hn : ∀ items, operand ≠ .collection items) :
    PredicateOk cls name ∧ ArgumentOk operator index operand := by
  cases h with
  | literal h => cases h
  | predicate hp hok => exact ⟨hp, hok⟩
  | within => exact absurd rfl (hn _)

theorem LevelsOk.instruction {code : Bytecode} (h : LevelsOk depth code) {instruction : Instruction}
    (hi : instruction ∈ code.stepInstructions) :
    (∃ operator, InstructionOk instruction operator) ∧
      ∀ argument ∈ instruction.arguments, HeldOk depth argument := by
  refine ⟨(h 0 code .root).2.instructions _ hi, fun argument ha held hheld below inner hn => ?_⟩
  obtain ⟨hd, hl⟩ := h _ _ (.child hi ha hheld hn)
  exact ⟨by omega, hl⟩

mutual
theorem copy_complete (htp : tp.Documented) : ∀ (code : Bytecode) {depth count : Nat},
    LevelsOk depth code → count + code.instructions ≤ MAX_STEPS →
      copy tp code depth count = .ok (code, count + code.instructions)
  | .mk exact source steps, depth, count, h, hn => by
    obtain ⟨hd, hl⟩ := h 0 _ .root
    obtain rfl : exact = true := hl.exact
    obtain rfl : source = [] := hl.noSource
    have hsteps : copySteps tp steps depth (.mk true [] []) count =
        .ok (.mk true [] ([] ++ steps), count + countSteps steps) :=
      copySteps_complete htp steps (fun i hi => h.instruction hi)
        (by simpa only [Bytecode.instructions] using hn)
    have hd' : depth ≤ MAX_DEPTH := by omega
    simp [copy, require, hd', hsteps, Bytecode.instructions, bind, Except.bind]

theorem copySteps_complete (htp : tp.Documented) : ∀ (steps : List Instruction) {depth count : Nat}
    {pre : List Instruction},
    (∀ instruction ∈ steps, (∃ operator, InstructionOk instruction operator) ∧
      ∀ argument ∈ instruction.arguments, HeldOk depth argument) →
    count + countSteps steps ≤ MAX_STEPS →
      copySteps tp steps depth (.mk true [] pre) count =
        .ok (.mk true [] (pre ++ steps), count + countSteps steps)
  | [], depth, count, pre, _, _ => by simp [copySteps, countSteps]
  | .mk operator arguments :: rest, depth, count, pre, h, hn => by
    simp only [countSteps] at hn
    obtain ⟨⟨⟨op, hop⟩, hheld⟩, hrest⟩ := List.forall_mem_cons.mp h
    obtain rfl : operator = some op := hop.named
    have hstep : stepAllowed (count + 1) (some op) = .ok true :=
      stepAllowed_ok.mpr ⟨by omega, op, hop.vocabulary, rfl⟩
    have hno : require (!((op == utf16 "V" || op == utf16 "E") && arguments.length ≠ 0)) = .ok () := by
      rw [require_ok]
      by_cases hve : op = utf16 "V" ∨ op = utf16 "E"
      · have hnil : arguments = [] := hop.noIdentifiers hve
        simp [hnil]
      · rw [not_or] at hve
        simp [hve.1, hve.2]
    have hargs : copyArguments tp op 0 arguments depth (count + 1) =
        .ok (arguments, count + 1 + countArguments arguments) :=
      copyArguments_complete htp arguments
        (fun i a ha => by simpa using hop.arguments i a ha) hheld (by omega)
    have hplain : ∀ argument ∈ arguments, argument.plain = true := fun a ha => by
      obtain ⟨i, hi⟩ := List.getElem?_of_mem ha
      exact (hop.arguments i a hi).plain
    have hsteps : copySteps tp rest depth (.mk true [] (pre ++ [.mk (some op) arguments]))
        (count + 1 + countArguments arguments) = .ok (.mk true [] (pre ++ [.mk (some op) arguments] ++ rest),
          count + 1 + countArguments arguments + countSteps rest) :=
      copySteps_complete htp rest hrest (by omega)
    have htrue : require true = .ok () := rfl
    simp only [copySteps, hstep, bind, Except.bind, Option.getD_some, hargs, htrue, hno,
      htp.addStep _ _ _ _ hplain, hsteps, countSteps, List.append_assoc, List.singleton_append]
    congr 2
    omega

theorem copyArguments_complete (htp : tp.Documented) : ∀ (arguments : List Value) {operator : JString}
    {index depth count : Nat},
    (∀ i argument, arguments[i]? = some argument → ArgumentOk operator (index + i) argument) →
    (∀ argument ∈ arguments, HeldOk depth argument) → count + countArguments arguments ≤ MAX_STEPS →
      copyArguments tp operator index arguments depth count =
        .ok (arguments, count + countArguments arguments)
  | [], _, _, _, _, _, _, _ => by simp [copyArguments, countArguments]
  | argument :: rest, operator, index, depth, count, h, hheld, hn => by
    simp only [countArguments] at hn
    obtain ⟨hheld, hhelds⟩ := List.forall_mem_cons.mp hheld
    have hv : value tp operator (index + 0) argument depth count =
        .ok (argument, count + argument.instructions) :=
      value_complete htp argument (h 0 argument rfl) hheld (by omega)
    have hr : copyArguments tp operator (index + 1) rest depth (count + argument.instructions) =
        .ok (rest, count + argument.instructions + countArguments rest) :=
      copyArguments_complete htp rest (fun i a ha => by
        have := h (i + 1) a (by simpa using ha)
        rwa [Nat.add_assoc, Nat.add_comm 1 i]) hhelds (by omega)
    simp only [Nat.add_zero] at hv
    simp only [copyArguments, hv, hr, bind, Except.bind, countArguments, Nat.add_assoc]

theorem value_complete (htp : tp.Documented) : ∀ (argument : Value) {operator : JString}
    {index depth count : Nat}, ArgumentOk operator index argument → HeldOk depth argument →
    count + argument.instructions ≤ MAX_STEPS →
      value tp operator index argument depth count = .ok (argument, count + argument.instructions)
  | .bytecode code, _, _, depth, count, _, hheld, hn => by
    have hcopy := copy_complete htp code (hheld code .here) (by simpa only [Value.instructions] using hn)
    simp [value, hcopy, Value.instructions, bind, Except.bind]
  | .string text, operator, index, _, _, h, _, _ => by
    have hs : stringValue operator index text = .ok () := stringValue_ok.mpr (h.names .here)
    simp [value, hs, Value.instructions, bind, Except.bind]
  | .predicate cls name operand, operator, index, depth, count, h, hheld, hn => by
    by_cases hi : ∃ items, operand = .collection items
    · obtain ⟨items, rfl⟩ := hi
      obtain ⟨hp, hlen, hoks⟩ := h.ofCollection
      have hname : predicateName cls name = .ok () := predicateName_ok.mpr hp
      have hm : members tp operator index items depth count = .ok (count + countArguments items) :=
        members_complete htp items hoks (fun item hitem code hc => hheld code (.member hitem hc))
          (by simpa only [Value.instructions] using hn)
      simp [value, hname, require, hlen, hm, Value.instructions, bind, Except.bind]
    · have hne : ∀ items, operand ≠ .collection items := fun items he => hi ⟨items, he⟩
      obtain ⟨hp, hok⟩ := h.ofPredicate hne
      have hname : predicateName cls name = .ok () := predicateName_ok.mpr hp
      rw [Value.instructions] at hn ⊢
      · have hv := value_complete htp operand hok (fun code hc => hheld code (.operand hc)) hn
        rw [value]
        · simp [hname, hv, bind, Except.bind]
        · exact hne
      · exact hne
      · exact hne
  | .enum token, _, _, _, _, h, _, _ => by
    have htoken : require (ENUM_PACKAGES.any fun package => package.isPrefixOf token.className) = .ok () := by
      rw [require_ok]
      cases h with
      | literal h => cases h
      | enum h => simpa using h
    simp [value, htoken, Value.instructions, bind, Except.bind]
  | .collection _, _, _, _, _, h, _, _ | .map _ _, _, _, _, _, h, _, _ | .other _, _, _, _, _, h, _, _ => by
    cases h
    next h => cases h
  | .null, _, _, _, _, _, _, _ | .integer _, _, _, _, _, _, _, _ | .long _, _, _, _, _, _, _, _
  | .double _, _, _, _, _, _, _, _ | .float _, _, _, _, _, _, _, _ | .boolean _, _, _, _, _, _, _, _
  | .date _, _, _, _, _, _, _, _ | .uuid _ _, _, _, _, _, _, _, _ => by
    simp [value, Value.instructions]

theorem members_complete (htp : tp.Documented) : ∀ (items : List Value) {operator : JString}
    {index depth count : Nat}, (∀ item ∈ items, ArgumentOk operator index item) →
    (∀ item ∈ items, HeldOk depth item) → count + countArguments items ≤ MAX_STEPS →
      members tp operator index items depth count = .ok (count + countArguments items)
  | [], _, _, _, _, _, _, _ => by simp [members, countArguments]
  | item :: rest, operator, index, depth, count, h, hheld, hn => by
    simp only [countArguments] at hn
    obtain ⟨hok, hoks⟩ := List.forall_mem_cons.mp h
    obtain ⟨hheld, hhelds⟩ := List.forall_mem_cons.mp hheld
    have hv : value tp operator index item depth count = .ok (item, count + item.instructions) :=
      value_complete htp item hok hheld (by omega)
    have hr : members tp operator index rest depth (count + item.instructions) =
        .ok (count + item.instructions + countArguments rest) :=
      members_complete htp rest hoks hhelds (by omega)
    simp only [members, hv, hr, bind, Except.bind, countArguments, Nat.add_assoc]
end

/-- `authorize` returns, and does not throw. -/
def Accepts (tp : TinkerPop) (user : Option AuthenticatedUser) (aliases : Option Value) (code : Bytecode) :
    Prop := ∃ checked, authorize tp user (some code) aliases = .ok checked

theorem accepts_iff {user : Option AuthenticatedUser} {aliases : Option Value} {code : Bytecode} :
    Accepts tp user aliases code ↔ OperatorUser user ∨
      ApplicationUser user ∧ aliases = some gAliases ∧ ∃ out, copy tp code 0 0 = .ok out := by
  rw [← admin_iff, ← aliasesEqual_iff]
  constructor
  · rintro ⟨checked, h⟩
    cases hu : admin user with
    | true => exact .inl rfl
    | false =>
      simp only [authorize, hu, Bool.false_eq_true, if_false, bind_ok, require_ok] at h
      obtain ⟨_, happ, _, halias, out, hcopy, -⟩ := h
      exact .inr ⟨application_ok happ, halias, out, hcopy⟩
  · rintro (hu | ⟨happ, halias, out, hcopy⟩)
    · exact ⟨some code, by simp [authorize, hu]⟩
    · exact ⟨some out.1, by
        simp [authorize, happ.not_admin, happ.application, require, halias, hcopy, bind, Except.bind]⟩

theorem copy_iff (htp : tp.Documented) {code : Bytecode} :
    (∃ out, copy tp code 0 0 = .ok out) ↔ Admitted code := by
  constructor
  · rintro ⟨⟨checked, n⟩, h⟩
    obtain ⟨-, hl, hn⟩ := copy_ok htp _ h
    refine ⟨hl, ?_⟩
    have hbound := hn.bound (Nat.zero_le _)
    rw [hn.sum] at hbound
    omega
  · intro h
    exact ⟨(code, 0 + code.instructions), copy_complete htp code h.levels (by simpa using h.length)⟩

/-- **The decision.** The policy accepts everything of the operator, and of
the application the admitted trees, for the graph `g`. -/
theorem authorize_iff (htp : tp.Documented) {user : Option AuthenticatedUser} {aliases : Option Value}
    {code : Bytecode} : Accepts tp user aliases code ↔
      OperatorUser user ∨ ApplicationUser user ∧ aliases = some gAliases ∧ Admitted code := by
  rw [accepts_iff, copy_iff htp]

/-! ## Ways down a tree -/

/-- A way from a value to one in it, through predicates alone. -/
inductive Hole
  | here
  | operand (cls : PredicateClass) (name : Option (Option JString)) (hole : Hole)
  | member (cls : PredicateClass) (name : Option (Option JString)) (before : List Value) (hole : Hole)
      (after : List Value)

/-- The value with another in the hole. -/
def Hole.plug : Hole → Value → Value
  | .here, inner => inner
  | .operand cls name hole, inner => .predicate cls name (hole.plug inner)
  | .member cls name before hole after, inner =>
    .predicate cls name (.collection (before ++ hole.plug inner :: after))

/-- A way from a bytecode to a value in one of its arguments. -/
structure Slot where
  exact : Bool
  source : List Instruction
  before : List Instruction
  operator : Option JString
  first : List Value
  hole : Hole
  last : List Value
  after : List Instruction

/-- The traversal with a value in the slot. -/
def Slot.plug (slot : Slot) (inner : Value) : Bytecode :=
  .mk slot.exact slot.source
    (slot.before ++ .mk slot.operator (slot.first ++ slot.hole.plug inner :: slot.last) :: slot.after)

/-- A bytecode below others, outermost first. -/
def fill (outer : List Slot) (code : Bytecode) : Bytecode :=
  outer.foldr (fun slot inner => slot.plug (.bytecode inner)) code

/-- No collection, which a predicate treats apart. -/
def Value.single : Value → Bool
  | .collection _ => false
  | _ => true

theorem Hole.single {hole : Hole} {inner : Value} (h : inner.single = true) :
    (hole.plug inner).single = true := by
  cases hole with
  | here => exact h
  | operand | member => rfl

/-! ## What the validator treats alike -/

/-- What a check does to the counter, or throws. -/
def outcome {α : Type} (x : Except Thrown (α × Nat)) : Except Thrown Nat := x.map (·.2)

section

variable {α α' β β' γ : Type}

theorem outcome_ok {x : Except Thrown (α × Nat)} {n : Nat} : outcome x = .ok n ↔ ∃ a, x = .ok (a, n) := by
  rcases x with e | ⟨a, m⟩
  · simp [outcome, Except.map]
  · simp [outcome, Except.map]

/-- What goes on with the counter alone is alike after like outcomes. -/
theorem bind_congr {x : Except Thrown (α × Nat)} {x' : Except Thrown (α' × Nat)}
    {f : α × Nat → Except Thrown γ}
    {f' : α' × Nat → Except Thrown γ} (hx : outcome x = outcome x')
    (hf : ∀ a a' n, f (a, n) = f' (a', n)) : (x >>= f) = (x' >>= f') := by
  rcases x with e | ⟨a, n⟩ <;> rcases x' with e' | ⟨a', n'⟩
  · cases hx
    rfl
  · cases hx
  · cases hx
  · cases hx
    exact hf a a' n

theorem outcome_congr {x : Except Thrown (α × Nat)} {x' : Except Thrown (α' × Nat)}
    {f : α × Nat → Except Thrown (β × Nat)} {f' : α' × Nat → Except Thrown (β' × Nat)}
    (hx : outcome x = outcome x') (hf : ∀ a a' n, outcome (f (a, n)) = outcome (f' (a', n))) :
    outcome (x >>= f) = outcome (x' >>= f') := by
  rcases x with e | ⟨a, n⟩ <;> rcases x' with e' | ⟨a', n'⟩
  · cases hx
    rfl
  · cases hx
  · cases hx
  · cases hx
    exact hf a a' n

end

/-- The checks of two values at an argument index end alike, at every depth and count. -/
def Alike (tp : TinkerPop) (operator : JString) (index : Nat) (v v' : Value) : Prop :=
  ∀ depth count, outcome (value tp operator index v depth count) =
    outcome (value tp operator index v' depth count)

theorem value_predicate {cls : PredicateClass} {name : Option (Option JString)} {v : Value}
    (h : v.single = true) : value tp operator index (.predicate cls name v) depth count =
      (predicateName cls name >>= fun _ => value tp operator index v depth count >>= fun out =>
        .ok (.predicate cls name v, out.2)) := by
  rw [value]
  rintro items rfl
  cases h

theorem members_alike {v v' : Value} (h : Alike tp operator index v v') {after : List Value}
    (before : List Value) (count : Nat) :
    members tp operator index (before ++ v :: after) depth count =
      members tp operator index (before ++ v' :: after) depth count := by
  induction before generalizing count with
  | nil =>
    simp only [List.nil_append, members]
    exact bind_congr (h depth count) fun _ _ _ => rfl
  | cons item before ih =>
    simp only [List.cons_append, members]
    exact bind_congr rfl fun _ _ n => ih n

theorem Alike.plug {v v' : Value} (h : Alike tp operator index v v') (hv : v.single = true)
    (hv' : v'.single = true) : ∀ hole : Hole, Alike tp operator index (hole.plug v) (hole.plug v')
  | .here => h
  | .operand cls name hole => by
    intro depth count
    have ih := h.plug hv hv' hole
    simp only [Hole.plug, value_predicate (Hole.single hv), value_predicate (Hole.single hv')]
    cases predicateName cls name with
    | error e => rfl
    | ok => exact outcome_congr (ih depth count) fun _ _ _ => rfl
  | .member cls name before hole after => by
    intro depth count
    have ih := h.plug hv hv' hole
    simp only [Hole.plug, value, members_alike ih, List.length_append, List.length_cons]
    cases predicateName cls name with
    | error e => rfl
    | ok =>
      cases require _ with
      | error e => rfl
      | ok => cases members tp operator index _ depth count <;> rfl

theorem copyArguments_alike {v v' : Value} {last : List Value} : ∀ (first : List Value) {index count : Nat},
    Alike tp operator (index + first.length) v v' →
      outcome (copyArguments tp operator index (first ++ v :: last) depth count) =
        outcome (copyArguments tp operator index (first ++ v' :: last) depth count)
  | [], _, count, h => by
    simp only [List.nil_append, copyArguments]
    exact outcome_congr (h depth count) fun _ _ _ => outcome_congr rfl fun _ _ _ => rfl
  | argument :: first, index, count, h => by
    have hrest : Alike tp operator (index + 1 + first.length) v v' := by
      rwa [List.length_cons, Nat.add_comm first.length 1, ← Nat.add_assoc] at h
    simp only [List.cons_append, copyArguments]
    exact outcome_congr rfl fun _ _ _ =>
      outcome_congr (copyArguments_alike first hrest) fun _ _ _ => rfl

/-- What has been rebuilt so far is not looked at again. -/
theorem copySteps_checked : ∀ (steps : List Instruction) {checked checked' : Bytecode} {count : Nat},
    outcome (copySteps tp steps depth checked count) = outcome (copySteps tp steps depth checked' count)
  | [], _, _, _ => rfl
  | .mk operator arguments :: rest, checked, checked', count => by
    simp only [copySteps]
    cases stepAllowed (count + 1) operator with
    | error e => rfl
    | ok b =>
      simp only [bind, Except.bind]
      split
      · rfl
      · split
        · rfl
        · exact outcome_congr rfl fun _ _ _ => copySteps_checked rest

theorem copySteps_alike {operator : Option JString} {arguments arguments' : List Value}
    {after : List Instruction} (hlen : arguments.length = arguments'.length)
    (h : ∀ count, outcome (copyArguments tp (operator.getD []) 0 arguments depth count) =
      outcome (copyArguments tp (operator.getD []) 0 arguments' depth count)) :
    ∀ (before : List Instruction) {checked checked' : Bytecode} {count : Nat},
      outcome (copySteps tp (before ++ .mk operator arguments :: after) depth checked count) =
        outcome (copySteps tp (before ++ .mk operator arguments' :: after) depth checked' count)
  | [], checked, checked', count => by
    simp only [List.nil_append, copySteps, hlen]
    cases stepAllowed (count + 1) operator with
    | error e => rfl
    | ok b =>
      simp only [bind, Except.bind]
      split
      · rfl
      · split
        · rfl
        · exact outcome_congr (h (count + 1)) fun _ _ _ => copySteps_checked after
  | .mk operator' arguments'' :: before, checked, checked', count => by
    simp only [List.cons_append, copySteps]
    cases stepAllowed (count + 1) operator' with
    | error e => rfl
    | ok b =>
      simp only [bind, Except.bind]
      split
      · rfl
      · split
        · rfl
        · exact outcome_congr rfl fun _ _ _ => copySteps_alike hlen h before

/-- The checks of two bytecodes end alike, at every depth and count. -/
def CopiesAlike (tp : TinkerPop) (code code' : Bytecode) : Prop :=
  ∀ depth count, outcome (copy tp code depth count) = outcome (copy tp code' depth count)

theorem Alike.slot (slot : Slot) {v v' : Value} (h : Alike tp (slot.operator.getD []) slot.first.length v v')
    (hv : v.single = true) (hv' : v'.single = true) : CopiesAlike tp (slot.plug v) (slot.plug v') := by
  intro depth count
  have hplug : Alike tp (slot.operator.getD []) (0 + slot.first.length) (slot.hole.plug v)
      (slot.hole.plug v') := by
    rw [Nat.zero_add]
    exact h.plug hv hv' slot.hole
  simp only [Slot.plug, copy]
  cases require _ with
  | error e => rfl
  | ok => exact copySteps_alike (by simp) (fun _ => copyArguments_alike slot.first hplug) slot.before

theorem CopiesAlike.bytecode {code code' : Bytecode} (h : CopiesAlike tp code code') :
    Alike tp operator index (.bytecode code) (.bytecode code') := by
  intro depth count
  simp only [value]
  exact outcome_congr (h (depth + 1) count) fun _ _ _ => rfl

/-- Below the same bytecodes, what is treated alike is treated alike. -/
theorem fill_congr {code code' : Bytecode} (h : CopiesAlike tp code code') :
    ∀ outer : List Slot, CopiesAlike tp (fill outer code) (fill outer code')
  | [] => h
  | _ :: outer => (fill_congr h outer).bytecode.slot _ rfl rfl

theorem CopiesAlike.ok {code code' : Bytecode} (h : CopiesAlike tp code code') {out : Bytecode × Nat}
    (hc : copy tp code depth count = .ok out) : ∃ out, copy tp code' depth count = .ok out := by
  have hn : outcome (copy tp code' depth count) = .ok out.2 := by
    rw [← h depth count, hc]
    rfl
  obtain ⟨checked, hchecked⟩ := outcome_ok.mp hn
  exact ⟨_, hchecked⟩

/-! ## What the validator refuses -/

theorem members_mem {items : List Value} {count count' : Nat}
    (h : members tp operator index items depth count = .ok count') : ∀ item ∈ items,
      ∃ count out, value tp operator index item depth count = .ok out := by
  induction items generalizing count with
  | nil => simp
  | cons item rest ih =>
    simp only [members, bind_ok] at h
    obtain ⟨out, hv, hr⟩ := h
    exact List.forall_mem_cons.mpr ⟨⟨count, out, hv⟩, ih hr⟩

theorem plug_ok {v : Value} (hv : v.single = true) : ∀ (hole : Hole) {count : Nat} {out : Value × Nat},
    value tp operator index (hole.plug v) depth count = .ok out →
      ∃ count out, value tp operator index v depth count = .ok out
  | .here, count, out, h => ⟨count, out, h⟩
  | .operand cls name hole, count, out, h => by
    simp only [Hole.plug, value_predicate (Hole.single hv), bind_ok] at h
    obtain ⟨_, -, _, h, -⟩ := h
    exact plug_ok hv hole h
  | .member cls name before hole after, count, out, h => by
    simp only [Hole.plug, value, bind_ok] at h
    obtain ⟨_, -, _, -, _, h, -⟩ := h
    obtain ⟨_, _, h⟩ := members_mem h (hole.plug v) (by simp)
    exact plug_ok hv hole h

theorem copyArguments_get {arguments : List Value} {index count : Nat} {out : List Value × Nat}
    (h : copyArguments tp operator index arguments depth count = .ok out) : ∀ i argument,
      arguments[i]? = some argument → ∃ count out,
        value tp operator (index + i) argument depth count = .ok out := by
  induction arguments generalizing index count out with
  | nil => simp
  | cons argument rest ih =>
    simp only [copyArguments, bind_ok] at h
    obtain ⟨out, hv, _, hr, -⟩ := h
    intro i a ha
    cases i with
    | zero =>
      cases ha
      exact ⟨count, out, hv⟩
    | succ i =>
      obtain ⟨count, out, h⟩ := ih hr i a (by simpa using ha)
      refine ⟨count, out, ?_⟩
      rwa [Nat.add_assoc, Nat.add_comm 1 i] at h

theorem copySteps_mem : ∀ {steps : List Instruction} {checked : Bytecode} {count : Nat}
    {out : Bytecode × Nat},
    copySteps tp steps depth checked count = .ok out → ∀ operator arguments,
      .mk operator arguments ∈ steps →
        ∃ count out, copyArguments tp (operator.getD []) 0 arguments depth count = .ok out
  | [], _, _, _, _ => nofun
  | .mk operator arguments :: rest, checked, count, out, h => by
    simp only [copySteps, bind_ok, require_ok] at h
    obtain ⟨b, hb, _, rfl, _, -, args, ha, hr⟩ := h
    obtain ⟨-, op, -, rfl⟩ := stepAllowed_ok.mp hb
    intro operator' arguments' hm
    rcases List.mem_cons.mp hm with he | hm
    · cases he
      exact ⟨_, args, ha⟩
    · exact copySteps_mem hr operator' arguments' hm

theorem slot_ok (slot : Slot) {v : Value} (hv : v.single = true) {out : Bytecode × Nat}
    (h : copy tp (slot.plug v) depth count = .ok out) : ∃ count out,
      value tp (slot.operator.getD []) slot.first.length v depth count = .ok out := by
  simp only [Slot.plug, copy, bind_ok] at h
  obtain ⟨_, -, h⟩ := h
  obtain ⟨_, _, h⟩ := copySteps_mem h slot.operator (slot.first ++ slot.hole.plug v :: slot.last) (by simp)
  obtain ⟨_, _, h⟩ := copyArguments_get h slot.first.length (slot.hole.plug v) (by simp)
  rw [Nat.zero_add] at h
  exact plug_ok hv slot.hole h

/-- A tree is refused with any bytecode in it that is refused. -/
theorem fill_ok {code : Bytecode} : ∀ (outer : List Slot) {depth count : Nat} {out : Bytecode × Nat},
    copy tp (fill outer code) depth count = .ok out →
      ∃ depth count out, copy tp code depth count = .ok out
  | [], depth, count, out, h => ⟨depth, count, out, h⟩
  | _ :: outer, depth, count, out, h => by
    obtain ⟨_, _, h⟩ := slot_ok _ rfl h
    simp only [value, bind_ok] at h
    obtain ⟨_, h, -⟩ := h
    exact fill_ok outer h

end CartyxInfra.Gremlin
