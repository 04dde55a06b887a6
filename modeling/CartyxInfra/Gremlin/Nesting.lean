/-
Two limits on how deep a request nests: the policy counts bytecodes within
each other, the decoder arrays and objects of the text.

A client writes a bytecode as an object within an object, an array in that
and an array an instruction, so a level of the policy is four of the decoder,
and predicates and literals add their own (`Client.levels`). The decoder has
32 of them for what the policy admits at 8 of its own
(`accepted_decodes_iff`).
-/
import CartyxInfra.Gremlin.GraphSONSerializer
import CartyxInfra.Gremlin.Decision

namespace CartyxInfra.Gremlin

open JString

/-! ## What a client writes -/

/-- The text of a literal: a number the parser takes, or a string. -/
inductive Scalar
  | number (text : JString) (short : text.length ≤ MAX_NUMBER_LENGTH)
  | string (text : JString)

/-- The JSON of a scalar. -/
def Scalar.json : Scalar → Json
  | .number text _ => .number text
  | .string text => .string text

/-- What GraphSON 3 leaves to the client. -/
structure Client where
  /-- Maps are `g:Map`s, and no plain objects. -/
  typedMaps : Bool
  /-- The type a collection is written under, and none of a plain array. -/
  collectionType : List Value → Option JString
  /-- The type a literal is written under, and none of a plain scalar. -/
  literalType : Value → Option JString
  scalar : Value → Scalar

/-- `{"@type": type, "@value": value}`. -/
def typed (type : JString) (value : Json) : Json := .object [AT_TYPE, AT_VALUE] [.string type, value]

/-- A value with its tag, where it gets one. -/
def typedAs : Option JString → Json → Json
  | some type, value => typed type value
  | none, value => value

/-- The tag of a predicate. -/
def predicateType : PredicateClass → Option JString
  | .p => some (utf16 "g:P")
  | .textP => some (utf16 "g:TextP")
  | .subclass => none

variable (client : Client)

/-- A scalar of a traversal, as the client writes it. -/
def Client.literal (v : Value) : Json := typedAs (client.literalType v) (client.scalar v).json

/-- A map with string keys. -/
def Client.map (entries : List (JString × Json)) : Json :=
  if client.typedMaps then
    typed (utf16 "g:Map") (.array (entries.flatMap fun entry => [.string entry.1, entry.2]))
  else .object (entries.map (·.1)) (entries.map (·.2))

mutual
/-- A bytecode, with no source instructions: `{"step": [[operator, argument, ..], ..]}`. -/
def Client.code : Bytecode → Option Json
  | .mk _ [] steps => (Client.steps steps).map fun steps =>
    typed (utf16 "g:Bytecode") (.object [utf16 "step"] [.array steps])
  | .mk _ _ _ => none

/-- The list of the steps, where each can be written. -/
def Client.steps : List Instruction → Option (List Json)
  | [] => some []
  | .mk (some operator) arguments :: rest =>
    (Client.values arguments).bind fun arguments => (Client.steps rest).map fun rest =>
      .array (.string operator :: arguments) :: rest
  | .mk none _ :: _ => none

/-- The values of a list, where each can be written. -/
def Client.values : List Value → Option (List Json)
  | [] => some []
  | v :: rest => (Client.value v).bind fun v => (Client.values rest).map fun rest => v :: rest

/-- A value in a bytecode; none for what the listed types have no place for. -/
def Client.value : Value → Option Json
  | .null => some .null
  | .string text => some (.string text)
  | .boolean b => some (.boolean b)
  | .bytecode code => Client.code code
  | .predicate cls (some (some name)) operand =>
    (predicateType cls).bind fun type => (Client.value operand).map fun operand =>
      typed type (.object [utf16 "predicate", utf16 "value"] [.string name, operand])
  | .collection items => (Client.values items).map fun written =>
    typedAs (client.collectionType items) (.array written)
  | .predicate _ _ _ | .map _ _ | .other _ => none
  | v => some (client.literal v)
end

/-- What a request holds besides its code, for the graph `g`. -/
structure Header where
  requestId : JString
  batchSize : Option Value
  evaluationTimeout : Option Value
  userAgent : Option JString

/-- The arguments of a request that it need not have. -/
def Header.options (header : Header) : List (JString × Json) :=
  (header.batchSize.map fun size => (utf16 "batchSize", client.literal size)).toList ++
    (header.evaluationTimeout.map fun timeout =>
      (utf16 "evaluationTimeout", client.literal timeout)).toList ++
    (header.userAgent.map fun agent => (utf16 "userAgent", Json.string agent)).toList

/-- The arguments of a request. -/
def Client.args (header : Header) (code : Json) : Json :=
  client.map ((utf16 "gremlin", code) :: (utf16 "aliases", client.map [(utf16 "g", .string (utf16 "g"))]) ::
    header.options client)

/-- The request a bytecode is sent in. -/
def Client.request (header : Header) (code : Bytecode) : Option Json :=
  (client.code code).map fun code =>
    .object (["requestId", "op", "processor", "args"].map utf16)
      [typed (utf16 "g:UUID") (.string header.requestId), .string (utf16 "bytecode"),
        .string (utf16 "traversal"), client.args header code]

/-! ## How deep it nests -/

/-- The level a type adds. -/
def layer : Option JString → Nat
  | some _ => 1
  | none => 0

mutual
/-- The levels of a bytecode: three around its instructions. -/
def Client.levels : Bytecode → Nat
  | .mk _ _ steps => 3 + Client.stepLevels steps

/-- The levels of a list of steps. -/
def Client.stepLevels : List Instruction → Nat
  | [] => 0
  | .mk _ arguments :: rest => max (1 + Client.deepest arguments) (Client.stepLevels rest)

/-- The levels of the deepest value. -/
def Client.deepest : List Value → Nat
  | [] => 0
  | v :: rest => max (Client.valueLevels v) (Client.deepest rest)

/-- The levels that a value takes. -/
def Client.valueLevels : Value → Nat
  | .bytecode code => Client.levels code
  | .predicate _ _ operand => 2 + Client.valueLevels operand
  | .collection items => layer (client.collectionType items) + 1 + Client.deepest items
  | .null | .string _ | .boolean _ | .map _ _ | .other _ => 0
  | v => layer (client.literalType v)
end

/-- The levels around the code: the request, its args, and a type's if they have one. -/
def Client.base : Nat := if client.typedMaps then 3 else 2

/-! ## What is written nests that deep -/

/-- A typed object is of a type the decoder lists. -/
def listed : Json → Bool
  | .object names values =>
    match Json.field AT_TYPE names values with
    | some (.string type) => TYPES.contains type
    | _ => true
  | _ => true

/-- A node the decoder takes if its type is listed. -/
def Sound (node : Json) : Prop := listed node = true → Clean node

theorem sound_array {items : List Json} : Sound (.array items) := fun _ => ⟨rfl, nofun, nofun⟩

theorem sound_string {text : JString} : Sound (.string text) := fun _ => ⟨rfl, nofun, nofun⟩

theorem sound_scalar : ∀ {scalar : Scalar}, Sound scalar.json
  | .number _ short, _ => ⟨rfl, fun _ h => by cases h; exact short, nofun⟩
  | .string _, _ => ⟨rfl, nofun, nofun⟩

/-- A plain object is sound, if its names are distinct and none is GraphSON's. -/
theorem sound_object {names : List JString} {values : List Json} (hd : names.Nodup)
    (ht : names.contains AT_TYPE = false) (hv : names.contains AT_VALUE = false) :
    Sound (.object names values) := fun _ =>
  ⟨by simp only [wellTyped, ht, hv, Bool.or_self, Bool.false_eq_true, if_false], nofun,
    fun _ _ h => by cases h; exact hd⟩

/-- A tree of a depth, sound throughout. -/
structure Written (tree : Json) (levels : Nat) : Prop where
  nesting : tree.nesting = levels
  sound : tree.Every Sound

/-- What is written of a list of values. -/
structure WrittenAll (items : List Json) (levels : Nat) : Prop where
  nesting : Json.nestingAll items = levels
  sound : Json.EveryIn Sound items

theorem WrittenAll.nil : WrittenAll [] 0 := ⟨rfl, trivial⟩

theorem Written.cons {item : Json} {rest : List Json} {m n : Nat} (h : Written item m)
    (hr : WrittenAll rest n) :
    WrittenAll (item :: rest) (max m n) :=
  ⟨by rw [Json.nestingAll, h.nesting, hr.nesting], h.sound, hr.sound⟩

theorem Written.string {text : JString} : Written (.string text) 0 := ⟨rfl, sound_string⟩

theorem WrittenAll.array {items : List Json} {n : Nat} (h : WrittenAll items n) :
    Written (.array items) (1 + n) :=
  ⟨by rw [Json.nesting, h.nesting], sound_array, h.sound⟩

theorem WrittenAll.object {names : List JString} {values : List Json} {n : Nat} (h : WrittenAll values n)
    (hd : names.Nodup) (ht : names.contains AT_TYPE = false) (hv : names.contains AT_VALUE = false) :
    Written (.object names values) (1 + n) :=
  ⟨by rw [Json.nesting, h.nesting], sound_object hd ht hv, h.sound⟩

theorem Written.typed {type : JString} {value : Json} {n : Nat} (h : Written value n) :
    Written (typed type value) (1 + n) := by
  refine ⟨by simp [Gremlin.typed, Json.nesting, Json.nestingAll, h.nesting], fun hlisted => ?_,
    sound_string, h.sound, trivial⟩
  refine ⟨?_, nofun, fun _ _ hn => by cases hn; decide⟩
  have hcontains : TYPES.contains type = true := hlisted
  have hfield : Json.field AT_TYPE [AT_TYPE, AT_VALUE] [.string type, value] = some (.string type) := rfl
  simp only [wellTyped, hfield, hcontains]
  decide

theorem Written.typedAs {value : Json} {n : Nat} (h : Written value n) : ∀ {type : Option JString},
    Written (typedAs type value) (layer type + n)
  | some _ => h.typed
  | none => by simpa [Gremlin.typedAs, layer] using h

variable {client}

theorem written_literal {v : Value} : Written (client.literal v) (layer (client.literalType v)) := by
  have hscalar : Written (client.scalar v).json 0 := ⟨by cases client.scalar v <;> rfl, by
    have hsound : Sound (client.scalar v).json := sound_scalar
    cases hs : client.scalar v <;> rw [hs] at hsound <;> exact hsound⟩
  simpa [Client.literal] using hscalar.typedAs

mutual
theorem written_code : ∀ (code : Bytecode) {tree : Json}, client.code code = some tree →
    Written tree (client.levels code)
  | .mk exact [] steps, tree, h => by
    simp only [Client.code, Option.map_eq_some_iff] at h
    obtain ⟨written, hs, rfl⟩ := h
    have hobject : Written (.object [utf16 "step"] [.array written]) (1 + (1 + client.stepLevels steps)) := by
      have hone := (written_steps steps hs).array.cons .nil
      rw [Nat.max_zero] at hone
      exact hone.object (by decide) (by decide) (by decide)
    have hlevels : client.levels (.mk exact [] steps) = 1 + (1 + (1 + client.stepLevels steps)) := by
      simp only [Client.levels]
      omega
    rw [hlevels]
    exact hobject.typed
  | .mk _ (_ :: _) _, _, h => by simp [Client.code] at h

theorem written_steps : ∀ (steps : List Instruction) {items : List Json}, client.steps steps = some items →
    WrittenAll items (client.stepLevels steps)
  | [], _, h => by
    simp only [Client.steps, Option.some.injEq] at h
    subst h
    exact .nil
  | .mk (some operator) arguments :: rest, _, h => by
    simp only [Client.steps, Option.bind_eq_some_iff, Option.map_eq_some_iff] at h
    obtain ⟨written, ha, writtenRest, hr, rfl⟩ := h
    have harguments := (show Written (.string operator) 0 from .string).cons (written_values arguments ha)
    rw [Nat.zero_max] at harguments
    exact harguments.array.cons (written_steps rest hr)
  | .mk none _ :: _, _, h => by simp [Client.steps] at h

theorem written_values : ∀ (values : List Value) {items : List Json}, client.values values = some items →
    WrittenAll items (client.deepest values)
  | [], _, h => by
    simp only [Client.values, Option.some.injEq] at h
    subst h
    exact .nil
  | v :: rest, _, h => by
    simp only [Client.values, Option.bind_eq_some_iff, Option.map_eq_some_iff] at h
    obtain ⟨written, hv, writtenRest, hr, rfl⟩ := h
    exact (written_value v hv).cons (written_values rest hr)

theorem written_value : ∀ (v : Value) {tree : Json}, client.value v = some tree →
    Written tree (client.valueLevels v)
  | .bytecode code, _, h => by
    simp only [Client.value] at h
    simpa only [Client.valueLevels] using written_code code h
  | .predicate cls (some (some name)) operand, _, h => by
    simp only [Client.value, Option.bind_eq_some_iff, Option.map_eq_some_iff] at h
    obtain ⟨type, -, written, ho, rfl⟩ := h
    have htwo := (show Written (.string name) 0 from .string).cons ((written_value operand ho).cons .nil)
    rw [Nat.zero_max, Nat.max_zero] at htwo
    have hobject : Written (.object [utf16 "predicate", utf16 "value"] [.string name, written])
      (1 + client.valueLevels operand) := htwo.object (by decide) (by decide) (by decide)
    have hlevels : client.valueLevels (.predicate cls (some (some name)) operand) =
        1 + (1 + client.valueLevels operand) := by
      simp only [Client.valueLevels]
      omega
    rw [hlevels]
    exact hobject.typed
  | .collection items, _, h => by
    simp only [Client.value, Option.map_eq_some_iff] at h
    obtain ⟨written, hi, rfl⟩ := h
    simp only [Client.valueLevels, Nat.add_assoc]
    exact (written_values items hi).array.typedAs
  | .null, _, h | .string _, _, h | .boolean _, _, h => by
    simp only [Client.value, Option.some.injEq] at h
    subst h
    simp only [Client.valueLevels]
    exact ⟨rfl, fun _ => ⟨rfl, nofun, nofun⟩⟩
  | .predicate _ none _, _, h | .predicate _ (some none) _, _, h | .map _ _, _, h | .other _, _, h => by
    simp [Client.value] at h
  | .integer _, _, h | .long _, _, h | .double _, _, h | .float _, _, h | .date _, _, h | .uuid _ _, _, h
  | .enum _, _, h => by
    simp only [Client.value, Option.some.injEq] at h
    subst h
    simp only [Client.valueLevels]
    exact written_literal
end

theorem WrittenAll.append : ∀ {items rest : List Json} {m n : Nat}, WrittenAll items m → WrittenAll rest n →
    WrittenAll (items ++ rest) (max m n)
  | [], _, _, _, h, hr => by
    rw [← h.nesting]
    simpa [Json.nestingAll] using hr
  | _ :: _, _, _, _, h, hr => by
    rw [← h.nesting, Json.nestingAll, Nat.max_assoc]
    exact Written.cons ⟨rfl, h.sound.1⟩ (WrittenAll.append ⟨rfl, h.sound.2⟩ hr)

theorem WrittenAll.entries : ∀ {entries : List (JString × Json)} {n : Nat}, WrittenAll (entries.map (·.2)) n →
    WrittenAll (entries.flatMap fun entry => [.string entry.1, entry.2]) n
  | [], _, h => h
  | (name, v) :: rest, n, h => by
    have hv : Written v v.nesting := ⟨rfl, h.sound.1⟩
    have hname : Written (.string name) 0 := .string
    have hrest : WrittenAll (rest.flatMap fun entry => [.string entry.1, entry.2]) _ :=
      WrittenAll.entries ⟨rfl, h.sound.2⟩
    have hboth := hname.cons (hv.cons hrest)
    rw [Nat.zero_max] at hboth
    rwa [← h.nesting]

theorem WrittenAll.map {entries : List (JString × Json)} {n : Nat} (h : WrittenAll (entries.map (·.2)) n)
    (hd : (entries.map (·.1)).Nodup) (ht : (entries.map (·.1)).contains AT_TYPE = false)
    (hv : (entries.map (·.1)).contains AT_VALUE = false) :
    Written (client.map entries) ((if client.typedMaps then 2 else 1) + n) := by
  unfold Client.map
  split
  · have htyped : Written (typed (utf16 "g:Map") _) _ := h.entries.array.typed
    rwa [← Nat.add_assoc] at htyped
  · exact h.object hd ht hv

theorem written_optional {α : Type} (name : JString) {write : α → Json}
    (h : ∀ v, ∃ n ≤ 1, Written (write v) n) :
    ∀ o : Option α, ∃ n ≤ 1, WrittenAll ((o.map fun v => (name, write v)).toList.map (·.2)) n
  | none => ⟨0, Nat.zero_le _, .nil⟩
  | some v => by
    obtain ⟨n, hn, hv⟩ := h v
    have hone := hv.cons .nil
    rw [Nat.max_zero] at hone
    exact ⟨n, hn, hone⟩

theorem written_options (header : Header) : ∃ n ≤ 1, WrittenAll ((header.options client).map (·.2)) n := by
  have hliteral : ∀ v, ∃ n ≤ 1, Written (client.literal v) n := fun v =>
    ⟨_, by cases client.literalType v <;> simp [layer], written_literal⟩
  obtain ⟨a, ha, hsize⟩ := written_optional (utf16 "batchSize") hliteral header.batchSize
  obtain ⟨b, hb, htimeout⟩ := written_optional (utf16 "evaluationTimeout") hliteral header.evaluationTimeout
  obtain ⟨c, hc, hagent⟩ := written_optional (utf16 "userAgent") (fun _ => ⟨0, Nat.zero_le _, .string⟩)
    header.userAgent
  refine ⟨max (max a b) c, by omega, ?_⟩
  rw [Header.options, List.map_append, List.map_append]
  exact (hsize.append htimeout).append hagent

/-- The names of the args are among those the policy knows, in its order. -/
theorem names_sublist (header : Header) :
    (utf16 "gremlin" :: utf16 "aliases" :: (header.options client).map (·.1)).Sublist ARGUMENTS := by
  have hone : ∀ {α : Type} (name : JString) (write : α → Json) (o : Option α),
      ((o.map fun v => (name, write v)).toList.map (·.1)).Sublist [name] := by
    intro α name write o
    cases o with
    | none => exact List.nil_sublist _
    | some v => exact List.Sublist.refl _
  refine .cons_cons _ (.cons_cons _ ?_)
  rw [Header.options, List.map_append, List.map_append]
  exact ((hone _ _ header.batchSize).append (hone _ _ header.evaluationTimeout)).append
    (hone _ _ header.userAgent)

theorem written_args (header : Header) {code : Json} {n : Nat} (h : Written code n) (hn : 3 ≤ n) :
    Written (client.args header code) ((if client.typedMaps then 2 else 1) + n) := by
  have hnames : (utf16 "gremlin" :: utf16 "aliases" :: (header.options client).map (·.1)).Sublist ARGUMENTS :=
    names_sublist header
  have hmem : ∀ name, name ∉ ARGUMENTS → (utf16 "gremlin" :: utf16 "aliases" ::
      (header.options client).map (·.1)).contains name = false := fun name hname => by
    rw [List.contains_eq_mem, decide_eq_false_iff_not]
    exact fun hin => hname (hnames.subset hin)
  have haliases : Written (client.map [(utf16 "g", .string (utf16 "g"))])
      ((if client.typedMaps then 2 else 1) + 0) := by
    have hg := (show Written (.string (utf16 "g")) 0 from .string).cons .nil
    exact WrittenAll.map hg (by simp) (by decide) (by decide)
  obtain ⟨m, hm, hoptions⟩ : ∃ m ≤ 1, WrittenAll ((header.options client).map (·.2)) m :=
    written_options header
  have hall := h.cons (haliases.cons hoptions)
  have hmax : max n (max ((if client.typedMaps then 2 else 1) + 0) m) = n := by split <;> omega
  rw [hmax] at hall
  exact WrittenAll.map hall (hnames.nodup (by decide)) (hmem _ (by decide)) (hmem _ (by decide))

/-- A request nests its code within its base. -/
theorem written_request {header : Header} {code : Bytecode} {tree : Json}
    (h : client.request header code = some tree) :
    Written tree (client.base + client.levels code) := by
  simp only [Client.request, Option.map_eq_some_iff] at h
  obtain ⟨written, hcode, rfl⟩ := h
  have hthree : 3 ≤ client.levels code := by
    cases code
    simp only [Client.levels]
    omega
  have hargs : Written (client.args header written) _ := written_args header (written_code code hcode) hthree
  have hid : Written (typed (utf16 "g:UUID") (.string header.requestId)) (1 + 0) := Written.string.typed
  have hstring : ∀ text, Written (.string text) 0 := fun _ => .string
  have hmembers := hid.cons ((hstring (utf16 "bytecode")).cons
    ((hstring (utf16 "traversal")).cons (hargs.cons .nil)))
  have hobject : Written (.object (["requestId", "op", "processor", "args"].map utf16) _) _ :=
    hmembers.object (by decide) (by decide) (by decide)
  have hlevels : client.base + client.levels code =
      1 + max (1 + 0) (max 0 (max 0 (max ((if client.typedMaps then 2 else 1) + client.levels code) 0))) := by
    unfold Client.base
    split <;> omega
  rw [hlevels]
  exact hobject

/-! ## What the policy admits can be written -/

mutual
theorem code_written : ∀ (code : Bytecode) {depth : Nat}, LevelsOk depth code →
    ∃ tree, client.code code = some tree
  | .mk exact source steps, depth, h => by
    obtain ⟨-, hl⟩ := h 0 _ .root
    obtain rfl : source = [] := hl.noSource
    obtain ⟨items, hitems⟩ := steps_written steps fun i hi => h.instruction hi
    simp [Client.code, hitems]

theorem steps_written : ∀ (steps : List Instruction) {depth : Nat},
    (∀ instruction ∈ steps, (∃ operator, InstructionOk instruction operator) ∧
      ∀ argument ∈ instruction.arguments, HeldOk depth argument) → ∃ items, client.steps steps = some items
  | [], _, _ => ⟨[], by simp [Client.steps]⟩
  | .mk operator arguments :: rest, depth, h => by
    obtain ⟨⟨⟨op, hop⟩, hheld⟩, hrest⟩ := List.forall_mem_cons.mp h
    obtain rfl : operator = some op := hop.named
    obtain ⟨items, hitems⟩ := values_written arguments (fun argument ha => by
      obtain ⟨index, hindex⟩ := List.getElem?_of_mem ha
      exact ⟨⟨op, index, hop.arguments index argument hindex⟩, hheld argument ha⟩)
    obtain ⟨others, hothers⟩ := steps_written rest hrest
    simp [Client.steps, hitems, hothers]

theorem values_written : ∀ (values : List Value) {depth : Nat},
    (∀ argument ∈ values, (∃ operator index, ArgumentOk operator index argument) ∧ HeldOk depth argument) →
      ∃ items, client.values values = some items
  | [], _, _ => ⟨[], by simp [Client.values]⟩
  | argument :: rest, depth, h => by
    obtain ⟨⟨⟨operator, index, hok⟩, hheld⟩, hrest⟩ := List.forall_mem_cons.mp h
    obtain ⟨tree, htree⟩ := value_written argument hok hheld
    obtain ⟨items, hitems⟩ := values_written rest hrest
    simp [Client.values, htree, hitems]

theorem value_written : ∀ (argument : Value) {operator : JString} {index depth : Nat},
    ArgumentOk operator index argument → HeldOk depth argument → ∃ tree, client.value argument = some tree
  | .bytecode code, _, _, _, _, hheld => by
    obtain ⟨tree, htree⟩ := code_written code (hheld code .here)
    simp [Client.value, htree]
  | .predicate cls name operand, operator, index, depth, h, hheld => by
    have hoperand : PredicateOk cls name ∧ ∃ tree, client.value operand = some tree := by
      by_cases hi : ∃ items, operand = .collection items
      · obtain ⟨items, rfl⟩ := hi
        obtain ⟨hp, -, hoks⟩ := h.ofCollection
        have hitems : ∀ item ∈ items, (∃ operator index, ArgumentOk operator index item) ∧
            HeldOk depth item :=
          fun item hitem => ⟨⟨operator, index, hoks item hitem⟩, fun code hc => hheld code (.member hitem hc)⟩
        obtain ⟨written, hwritten⟩ := values_written items hitems
        exact ⟨hp, by simp [Client.value, hwritten]⟩
      · obtain ⟨hp, hok⟩ := h.ofPredicate fun items he => hi ⟨items, he⟩
        exact ⟨hp, value_written operand hok fun code hc => hheld code (.operand hc)⟩
    obtain ⟨⟨hcls, text, -, rfl⟩, tree, htree⟩ := hoperand
    obtain ⟨type, htype⟩ : ∃ type, predicateType cls = some type := by
      cases cls with
      | p | textP => exact ⟨_, rfl⟩
      | subclass => exact absurd rfl hcls
    simp [Client.value, htree, htype]
  | .collection _, _, _, _, h, _ | .map _ _, _, _, _, h, _ | .other _, _, _, _, h, _ => by
    cases h
    next h => cases h
  | .null, _, _, _, _, _ | .string _, _, _, _, _, _ | .boolean _, _, _, _, _, _ | .integer _, _, _, _, _, _
  | .long _, _, _, _, _, _ | .double _, _, _, _, _, _ | .float _, _, _, _, _, _ | .date _, _, _, _, _, _
  | .uuid _ _, _, _, _, _, _ | .enum _, _, _, _, _, _ => by
    simp [Client.value]
end

/-! ## The two limits -/

variable {tp : TinkerPop} {jackson : Jackson} {user : Option AuthenticatedUser} {aliases : Option Value}
  {code : Bytecode}

/-- **Nesting.** What the policy accepts of an application can be sent; and of
what it accepts, the decoder takes a text of listed types within its sizes
exactly when the levels of the code, with those around it, are at most 32. -/
theorem accepted_decodes_iff (htp : tp.Documented) (hj : jackson.Documented)
    (h : Accepts tp user aliases code)
    (client : Client) (header : Header) :
    (ApplicationUser user → ∃ tree, client.request header code = some tree) ∧
    ∀ input : JsonText, client.request header code = some input.tree → input.tree.Every (listed · = true) →
      input.length ≤ 65536 → input.tree.nodes ≤ 2048 →
      (structural jackson input = true ↔ client.base + client.levels code ≤ 32) := by
  constructor
  · intro hu
    rcases (authorize_iff htp).mp h with hoperator | ⟨-, -, hadmitted⟩
    · have hadmin := admin_iff.mpr hoperator
      rw [hu.not_admin] at hadmin
      exact absurd hadmin nofun
    · obtain ⟨tree, htree⟩ : ∃ tree, client.code code = some tree := code_written code hadmitted.levels
      exact ⟨_, by rw [Client.request, htree]; rfl⟩
  · intro input hrequest hlisted hlength hnodes
    have hwritten := written_request hrequest
    have hclean : input.tree.Every Clean :=
      (hwritten.sound.and hlisted).mono fun _ ⟨hsound, hlist⟩ => hsound hlist
    rw [structural_iff hj hlength hnodes hclean, hwritten.nesting]

/-- A client, as far as codes without literals go. -/
def sampleClient : Client where
  typedMaps := false
  collectionType _ := some (utf16 "g:List")
  literalType _ := none
  scalar _ := .string []

/-- A request without options. -/
def sampleHeader : Header where
  requestId := utf16 "41d2e28a-20a4-4ab0-b379-d810dede3786"
  batchSize := none
  evaluationTimeout := none
  userAgent := none

/-- Jackson, as far as trees with short numbers and distinct names go. -/
def Jackson.reference : Jackson where
  readTree input := if input.tree.nesting ≤ MAX_NESTING then .ok input.tree else .error ()

theorem Jackson.reference_documented : Jackson.reference.Documented where
  within input h _ := by simp [Jackson.reference, h]
  nesting input h := by simp [Jackson.reference, Nat.not_le.mpr h]

/-- The text of a request. -/
def sampleText : JsonText where
  length := 388
  tree := (sampleClient.request sampleHeader sampleCode).getD .null
  strings := by decide +kernel

/-- `union(union(.. out() ..))`, as deep as is said. -/
def deep : Nat → Bytecode
  | 0 => .mk true [] [.mk (some (utf16 "out")) []]
  | n + 1 => .mk true [] [.mk (some (utf16 "union")) [.bytecode (deep n)]]

/-- The text of a request with the deepest nesting the policy admits. -/
def deepText : JsonText where
  length := 634
  tree := (sampleClient.request sampleHeader (deep 8)).getD .null
  strings := by decide +kernel

theorem accepted_decodes_sample :
    (∃ tree, sampleClient.request sampleHeader sampleCode = some tree) ∧
    (structural .reference sampleText = true ↔ sampleClient.base + sampleClient.levels sampleCode ≤ 32) := by
  have h := accepted_decodes_iff TinkerPop.reference_documented Jackson.reference_documented
    (show Accepts .reference sampleUser (some gAliases) sampleCode from ⟨some sampleCode, rfl⟩)
    sampleClient sampleHeader
  exact ⟨h.1 sampleUser_application,
    h.2 sampleText rfl (by decide +kernel) (by decide) (by decide +kernel)⟩

/-- Eight levels of `union` are accepted, and not decoded. -/
theorem accepted_undecoded : ¬ ∀ (tp : TinkerPop) (jackson : Jackson) (user : Option AuthenticatedUser)
    (aliases : Option Value) (code : Bytecode) (client : Client) (header : Header) (input : JsonText),
    tp.Documented → jackson.Documented → Accepts tp user aliases code →
    client.request header code = some input.tree → input.tree.Every (listed · = true) →
    input.length ≤ 65536 → input.tree.nodes ≤ 2048 → structural jackson input = true := by
  intro h
  have hdecoded := h .reference .reference sampleUser (some gAliases)
    (deep 8) sampleClient sampleHeader deepText
    TinkerPop.reference_documented Jackson.reference_documented ⟨some (deep 8), rfl⟩ rfl (by decide +kernel)
    (by decide) (by decide +kernel)
  have hnot : structural .reference deepText = false := by decide +kernel
  rw [hnot] at hdecoded
  exact absurd hdecoded nofun

end CartyxInfra.Gremlin
