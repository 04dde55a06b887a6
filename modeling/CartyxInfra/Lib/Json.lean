/-
JSON trees, and what a parser that bounds them measures: how deep arrays and
objects nest, how deep the deepest node lies, and how many nodes there are.
`Has` is a node of a tree at its depth, and `Every` says something of every
node.
-/
import CartyxInfra.Lib.JString

namespace CartyxInfra

/-- A JSON value; a number by its text, an object by its names, in order,
and their values. -/
inductive Json
  | null
  | boolean (b : Bool)
  | number (text : JString)
  | string (text : JString)
  | array (items : List Json)
  | object (names : List JString) (values : List Json)

namespace Json

/-- The value of an object under a name. -/
def field (name : JString) (names : List JString) (values : List Json) : Option Json :=
  ((names.zip values).find? fun entry => entry.1 == name).map (·.2)

theorem mem_of_field {name : JString} {names : List JString} {values : List Json} {node : Json}
    (h : field name names values = some node) : name ∈ names := by
  simp only [field, Option.map_eq_some_iff] at h
  obtain ⟨⟨found, value⟩, hfind, -⟩ := h
  have hname : found = name := by simpa using List.find?_some hfind
  subst hname
  exact (List.of_mem_zip (List.mem_of_find?_eq_some hfind)).1

mutual
/-- How deep arrays and objects nest. -/
def nesting : Json → Nat
  | .array items => 1 + nestingAll items
  | .object _ values => 1 + nestingAll values
  | _ => 0

/-- The same over a list. -/
def nestingAll : List Json → Nat
  | [] => 0
  | item :: rest => max item.nesting (nestingAll rest)
end

mutual
/-- How far below the root the deepest node lies: an empty array or object
nests like one with scalars in it, and is less high. -/
def height : Json → Nat
  | .array items => heightAll items
  | .object _ values => heightAll values
  | _ => 0

/-- The same over a list. -/
def heightAll : List Json → Nat
  | [] => 0
  | item :: rest => max (1 + item.height) (heightAll rest)
end

mutual
/-- The nodes of a tree. -/
def nodes : Json → Nat
  | .array items => 1 + nodesAll items
  | .object _ values => 1 + nodesAll values
  | _ => 1

/-- The same over a list. -/
def nodesAll : List Json → Nat
  | [] => 0
  | item :: rest => item.nodes + nodesAll rest
end

mutual
/-- A property of every node of a tree. -/
def Every (good : Json → Prop) : Json → Prop
  | .array items => good (.array items) ∧ EveryIn good items
  | .object names values => good (.object names values) ∧ EveryIn good values
  | .null => good .null
  | .boolean b => good (.boolean b)
  | .number text => good (.number text)
  | .string text => good (.string text)

/-- The same over a list. -/
def EveryIn (good : Json → Prop) : List Json → Prop
  | [] => True
  | item :: rest => Every good item ∧ EveryIn good rest
end

variable {good good' : Json → Prop}

mutual
theorem Every.mono (h : ∀ node, good node → good' node) : ∀ {node : Json}, Every good node → Every good' node
  | .array _, ⟨hn, hi⟩ => ⟨h _ hn, EveryIn.mono h hi⟩
  | .object _ _, ⟨hn, hi⟩ => ⟨h _ hn, EveryIn.mono h hi⟩
  | .null, hn | .boolean _, hn | .number _, hn | .string _, hn => h _ hn

theorem EveryIn.mono (h : ∀ node, good node → good' node) : ∀ {items : List Json},
    EveryIn good items → EveryIn good' items
  | [], _ => trivial
  | _ :: _, ⟨hi, hr⟩ => ⟨hi.mono h, EveryIn.mono h hr⟩
end

mutual
theorem Every.and : ∀ {node : Json}, Every good node → Every good' node →
    Every (fun node => good node ∧ good' node) node
  | .array _, ⟨hn, hi⟩, ⟨hn', hi'⟩ => ⟨⟨hn, hn'⟩, EveryIn.and hi hi'⟩
  | .object _ _, ⟨hn, hi⟩, ⟨hn', hi'⟩ => ⟨⟨hn, hn'⟩, EveryIn.and hi hi'⟩
  | .null, hn, hn' | .boolean _, hn, hn' | .number _, hn, hn' | .string _, hn, hn' => ⟨hn, hn'⟩

theorem EveryIn.and : ∀ {items : List Json}, EveryIn good items → EveryIn good' items →
    EveryIn (fun node => good node ∧ good' node) items
  | [], _, _ => trivial
  | _ :: _, ⟨hi, hr⟩, ⟨hi', hr'⟩ => ⟨hi.and hi', EveryIn.and hr hr'⟩
end

mutual
theorem height_le_nesting : ∀ node : Json, node.height ≤ node.nesting
  | .array items => heightAll_le_nestingAll items
  | .object _ values => heightAll_le_nestingAll values
  | .null | .boolean _ | .number _ | .string _ => Nat.le_refl 0

theorem heightAll_le_nestingAll : ∀ items : List Json, heightAll items ≤ 1 + nestingAll items
  | [] => Nat.zero_le _
  | item :: rest => by
    have hi := height_le_nesting item
    have hr := heightAll_le_nestingAll rest
    simp only [heightAll, nestingAll]
    omega
end

/-! ## A node of a tree, at its depth -/

/-- A tree has a node at a depth below its root. -/
inductive Has : Json → Nat → Json → Prop
  | root {node : Json} : Has node 0 node
  | item {items : List Json} {child node : Json} {depth : Nat} : child ∈ items → Has child depth node →
      Has (.array items) (depth + 1) node
  | value {names : List JString} {values : List Json} {child node : Json} {depth : Nat} : child ∈ values →
      Has child depth node → Has (.object names values) (depth + 1) node

theorem EveryIn.of_mem : ∀ {items : List Json}, EveryIn good items → ∀ {child : Json}, child ∈ items →
    Every good child
  | _ :: _, ⟨hi, _⟩, _, .head _ => hi
  | _ :: _, ⟨_, hr⟩, _, .tail _ hmem => EveryIn.of_mem hr hmem

theorem Every.root : ∀ {node : Json}, Every good node → good node
  | .array _, h | .object _ _, h => h.1
  | .null, h | .boolean _, h | .number _, h | .string _, h => h

theorem Every.of_has {tree node : Json} {depth : Nat} (h : tree.Has depth node) :
    Every good tree → good node := by
  induction h with
  | root => exact Every.root
  | item hmem _ ih => exact fun he => ih (he.2.of_mem hmem)
  | value hmem _ ih => exact fun he => ih (he.2.of_mem hmem)

mutual
theorem every_of_has : ∀ {tree : Json}, (∀ depth node, tree.Has depth node → good node) → Every good tree
  | .array _, h => ⟨h 0 _ .root, everyIn_of_has fun _ hmem depth node hn =>
    h (depth + 1) node (.item hmem hn)⟩
  | .object _ _, h => ⟨h 0 _ .root, everyIn_of_has fun _ hmem depth node hn =>
    h (depth + 1) node (.value hmem hn)⟩
  | .null, h | .boolean _, h | .number _, h | .string _, h => h 0 _ .root

theorem everyIn_of_has : ∀ {items : List Json},
    (∀ child ∈ items, ∀ depth node, child.Has depth node → good node) → EveryIn good items
  | [], _ => trivial
  | _ :: _, h => ⟨every_of_has (h _ (.head _)), everyIn_of_has fun _ hmem => h _ (.tail _ hmem)⟩
end

/-- What holds of every node holds of each, at whatever depth, and the other way round. -/
theorem every_iff {tree : Json} : Every good tree ↔ ∀ depth node, tree.Has depth node → good node :=
  ⟨fun h _ _ hn => h.of_has hn, every_of_has⟩

theorem height_lt_heightAll : ∀ {items : List Json} {child : Json}, child ∈ items →
    child.height < heightAll items
  | item :: rest, _, .head _ => by simp only [heightAll]; omega
  | item :: rest, _, .tail _ hmem => by
    have hr := height_lt_heightAll hmem
    simp only [heightAll]
    omega

theorem Has.le_height {tree node : Json} {depth : Nat} (h : tree.Has depth node) : depth ≤ tree.height := by
  induction h with
  | root => exact Nat.zero_le _
  | item hmem _ ih | value hmem _ ih =>
    have hlt := height_lt_heightAll hmem
    simp only [height]
    omega

mutual
theorem height_le_of_has : ∀ {tree : Json} {bound : Nat},
    (∀ depth node, tree.Has depth node → depth ≤ bound) →
    tree.height ≤ bound
  | .array _, _, h => heightAll_le_of_has fun _ hmem depth node hn => h (depth + 1) node (.item hmem hn)
  | .object _ _, _, h => heightAll_le_of_has fun _ hmem depth node hn => h (depth + 1) node (.value hmem hn)
  | .null, _, _ | .boolean _, _, _ | .number _, _, _ | .string _, _, _ => Nat.zero_le _

theorem heightAll_le_of_has : ∀ {items : List Json} {bound : Nat},
    (∀ child ∈ items, ∀ depth node, child.Has depth node → depth + 1 ≤ bound) → heightAll items ≤ bound
  | [], _, _ => Nat.zero_le _
  | item :: _, 0, h => absurd (h item (.head _) 0 item .root) (by omega)
  | item :: _, bound + 1, h => by
    have hi : item.height ≤ bound :=
      height_le_of_has fun depth node hn => Nat.le_of_succ_le_succ (h item (.head _) depth node hn)
    have hr := heightAll_le_of_has fun child hmem => h child (.tail _ hmem)
    simp only [heightAll]
    omega
end

/-- The height bounds the depth of every node, and no less than it does. -/
theorem height_le_iff {tree : Json} {bound : Nat} :
    tree.height ≤ bound ↔ ∀ depth node, tree.Has depth node → depth ≤ bound :=
  ⟨fun h _ _ hn => Nat.le_trans hn.le_height h, height_le_of_has⟩

mutual
/-- A property that is decided is decided of every node. -/
def decideEvery [DecidablePred good] : ∀ node : Json, Decidable (Every good node)
  | .array items => @instDecidableAnd _ _ _ (decideEveryIn items)
  | .object _ values => @instDecidableAnd _ _ _ (decideEveryIn values)
  | .null | .boolean _ | .number _ | .string _ => inferInstanceAs (Decidable (good _))

/-- The same over a list. -/
def decideEveryIn [DecidablePred good] : ∀ items : List Json, Decidable (EveryIn good items)
  | [] => .isTrue trivial
  | item :: rest => @instDecidableAnd _ _ (decideEvery item) (decideEveryIn rest)
end

instance [DecidablePred good] : DecidablePred (Every good) := decideEvery

end Json

end CartyxInfra
