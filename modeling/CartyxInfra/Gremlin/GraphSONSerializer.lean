/-
`IdentityGraphSONSerializer`: what of a request is decoded at all.

The text is parsed into a plain tree under limits, and the tree checked,
before the typed deserializer sees it. A limit of the parser counts arrays
and objects within each other, and so does the check's, whose root is at 0.
-/
import CartyxInfra.Lib.Json

namespace CartyxInfra.Gremlin

open JString

/-- The length of a string's text. -/
def stringLength : Json → Nat
  | .string text => text.length
  | _ => 0

/-- A JSON text, by its length and the tree it is of; no string in it is
longer than the text. -/
structure JsonText where
  length : Nat
  tree : Json
  strings : tree.Every fun node => stringLength node ≤ length

/-- What is used of Jackson: `plain.readTree`, with the limits below. -/
structure Jackson where
  readTree : JsonText → Except Unit Json

/-- The deepest nesting of objects and arrays. -/
def MAX_NESTING : Nat := 32

/-- The longest string. -/
def MAX_STRING_LENGTH : Nat := 65536

/-- The longest text of a number. -/
def MAX_NUMBER_LENGTH : Nat := 32

/-- A node within the limits on strings and numbers, with no name twice. -/
def WithinLimits : Json → Prop
  | .string text => text.length ≤ MAX_STRING_LENGTH
  | .number text => text.length ≤ MAX_NUMBER_LENGTH
  | .object names _ => names.Nodup
  | _ => True

/-- What Jackson documents of its limits. -/
structure Jackson.Documented (jackson : Jackson) : Prop where
  within : ∀ input, input.tree.nesting ≤ MAX_NESTING → input.tree.Every WithinLimits →
    jackson.readTree input = .ok input.tree
  nesting : ∀ input, MAX_NESTING < input.tree.nesting → jackson.readTree input = .error ()

/-- The types that a value may be tagged with. -/
def TYPES : List JString :=
  ["g:UUID", "g:Bytecode", "g:Map", "g:List", "g:Set", "g:Int32", "g:Int64", "g:Double", "g:Float", "g:Date",
    "g:Timestamp", "g:P", "g:TextP", "g:T", "g:Order", "g:Scope", "g:Column", "g:Direction", "g:Cardinality",
    "g:Pop"].map utf16

/-- The name of a value's tag. -/
def AT_TYPE : JString := utf16 "@type"

/-- The name of what is tagged. -/
def AT_VALUE : JString := utf16 "@value"

/-- A typed object has a listed type, and a value, and nothing else. -/
def wellTyped : Json → Bool
  | .object names values =>
    if names.contains AT_TYPE || names.contains AT_VALUE then
      names.length == 2 && names.contains AT_VALUE &&
        match Json.field AT_TYPE names values with
        | some (.string type) => TYPES.contains type
        | _ => false
    else true
  | _ => true

mutual
/-- `check(node, depth, count)`: the counter goes in and comes out, where it does not throw. -/
def check : Json → Nat → Nat → Option Nat
  | .array items, depth, count =>
    if depth > 32 || count + 1 > 2048 then none else checkAll items (depth + 1) (count + 1)
  | .object names values, depth, count =>
    if depth > 32 || count + 1 > 2048 || !wellTyped (.object names values) then none
    else checkAll values (depth + 1) (count + 1)
  | _, depth, count => if depth > 32 || count + 1 > 2048 then none else some (count + 1)

/-- The loop over the children of a node. -/
def checkAll : List Json → Nat → Nat → Option Nat
  | [], _, count => some count
  | child :: rest, depth, count => (check child depth count).bind (checkAll rest depth)
end

/-- The part of `deserializeRequest` before the typed deserializer: whether it comes to that. -/
def structural (jackson : Jackson) (input : JsonText) : Bool :=
  if input.length > 65536 then false
  else
    match jackson.readTree input with
    | .error _ => false
    | .ok tree => (check tree 0 0).isSome

/-! ## What the check admits -/

theorem check_array {items : List Json} {depth count : Nat} : check (.array items) depth count =
    if depth ≤ 32 ∧ count + 1 ≤ 2048 then checkAll items (depth + 1) (count + 1) else none := by
  simp only [check, Bool.or_eq_true, decide_eq_true_eq]
  by_cases hg : depth ≤ 32 ∧ count + 1 ≤ 2048
  · rw [if_pos hg, if_neg (by omega)]
  · rw [if_neg hg, if_pos (by omega)]

theorem check_object {names : List JString} {values : List Json} {depth count : Nat} :
    check (.object names values) depth count =
      if (depth ≤ 32 ∧ count + 1 ≤ 2048) ∧ wellTyped (.object names values) = true then
        checkAll values (depth + 1) (count + 1)
      else none := by
  simp only [check, Bool.or_eq_true, decide_eq_true_eq]
  cases wellTyped (.object names values) with
  | false => rw [if_pos (.inr rfl), if_neg (by simp)]
  | true =>
    by_cases hg : depth ≤ 32 ∧ count + 1 ≤ 2048
    · rw [if_neg (by simp; omega), if_pos ⟨hg, rfl⟩]
    · rw [if_pos (.inl (by omega)), if_neg (fun h => hg h.1)]

mutual
/-- **The check comes through exactly on a tree within its bounds whose typed
objects are well typed**, from wherever it starts, and has then counted every node. -/
theorem check_eq_some : ∀ {node : Json} {depth count n : Nat}, check node depth count = some n ↔
    depth + node.height ≤ 32 ∧ count + node.nodes ≤ 2048 ∧ node.Every (fun node => wellTyped node = true) ∧
      n = count + node.nodes
  | .array items, depth, count, n => by
    have ht : wellTyped (.array items) = true := rfl
    rw [check_array]
    simp only [Json.height, Json.nodes, Json.Every, ht, true_and]
    by_cases hg : depth ≤ 32 ∧ count + 1 ≤ 2048
    · rw [if_pos hg, checkAll_eq_some hg.1 hg.2, Nat.add_assoc]
    · rw [if_neg hg]
      exact ⟨nofun, fun h => absurd ⟨by omega, by omega⟩ hg⟩
  | .object names values, depth, count, n => by
    rw [check_object]
    simp only [Json.height, Json.nodes, Json.Every]
    by_cases hg : (depth ≤ 32 ∧ count + 1 ≤ 2048) ∧ wellTyped (.object names values) = true
    · rw [if_pos hg, checkAll_eq_some hg.1.1 hg.1.2, Nat.add_assoc, and_iff_right hg.2]
    · rw [if_neg hg]
      exact ⟨nofun, fun h => absurd ⟨⟨by omega, by omega⟩, h.2.2.1.1⟩ hg⟩
  | .null, depth, count, n | .boolean _, depth, count, n | .number _, depth, count, n
  | .string _, depth, count, n => by
    simp only [check, Json.height, Json.nodes, Json.Every, wellTyped, true_and]
    split
    · simp_all; omega
    · simp_all; omega

theorem checkAll_eq_some : ∀ {items : List Json} {depth count n : Nat}, depth ≤ 32 → count ≤ 2048 →
    (checkAll items (depth + 1) count = some n ↔
      depth + Json.heightAll items ≤ 32 ∧ count + Json.nodesAll items ≤ 2048 ∧
        Json.EveryIn (fun node => wellTyped node = true) items ∧ n = count + Json.nodesAll items)
  | [], depth, count, n, hd, hc => by
    simp [checkAll, Json.heightAll, Json.nodesAll, Json.EveryIn, hd, hc, eq_comm]
  | item :: rest, depth, count, n, hd, hc => by
    simp only [checkAll, Option.bind_eq_some_iff, Json.heightAll, Json.nodesAll, Json.EveryIn]
    constructor
    · rintro ⟨m, hm, hr⟩
      obtain ⟨hh, hn, he, rfl⟩ := check_eq_some.1 hm
      obtain ⟨hh', hn', he', rfl⟩ := (checkAll_eq_some hd hn).1 hr
      exact ⟨by omega, by omega, ⟨he, he'⟩, by omega⟩
    · rintro ⟨hh, hn, ⟨he, he'⟩, rfl⟩
      refine ⟨count + item.nodes, check_eq_some.2 ⟨by omega, by omega, he, rfl⟩, ?_⟩
      exact (checkAll_eq_some hd (by omega)).2 ⟨by omega, by omega, he', by omega⟩
end

/-- A node the parser and the check have nothing against. -/
structure Clean (node : Json) : Prop where
  typed : wellTyped node = true
  number : ∀ text, node = .number text → text.length ≤ MAX_NUMBER_LENGTH
  names : ∀ names values, node = .object names values → names.Nodup

/-- A text that is not too long, of clean nodes that are not too many, comes
through exactly when it does not nest too deep. -/
theorem structural_iff {jackson : Jackson} (hj : jackson.Documented) {input : JsonText}
    (hl : input.length ≤ 65536) (hn : input.tree.nodes ≤ 2048) (hc : input.tree.Every Clean) :
    structural jackson input = true ↔ input.tree.nesting ≤ 32 := by
  have hlen : ¬ input.length > 65536 := by omega
  constructor
  · intro h
    by_contra hd
    have hread := hj.nesting input (by simpa [MAX_NESTING] using hd)
    simp [structural, hread] at h
  · intro hd
    have hlimits : input.tree.Every WithinLimits := by
      refine (hc.and input.strings).mono fun node ⟨hclean, hstring⟩ => ?_
      cases node with
      | number text => exact hclean.number text rfl
      | object names values => exact hclean.names names values rfl
      | string text => exact Nat.le_trans hstring hl
      | _ => exact trivial
    have hread := hj.within input hd hlimits
    have hheight := input.tree.height_le_nesting
    have hcheck : check input.tree 0 0 = some (0 + input.tree.nodes) :=
      check_eq_some.2 ⟨by omega, by omega, hc.mono fun _ h => h.typed, rfl⟩
    simp [structural, hlen, hread, hcheck]

end CartyxInfra.Gremlin
