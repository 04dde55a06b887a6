/-
The Java objects a graph request is made of, as far as the server's policy
looks at them: bytecode, the values in it, and the request around it.

An object is given by what the policy can ask of it (`instanceof`,
`getClass()`, its contents), so a subclass of `Bytecode` or of `P` is told
apart from the class itself. Reserved for `other` is every object of a class
the policy never inspects (a lambda, a traversal, an array).
-/
import CartyxInfra.Lib.JString

namespace CartyxInfra.Gremlin

/-- An enum constant: the enum it is declared in, the name of its
`getClass()` (a constant with a body has a class of its own) and its name. -/
structure EnumToken where
  declaringClass : JString
  className : JString
  constant : JString
  deriving DecidableEq

/-- `getClass()` of an object that is an `instanceof P`. -/
inductive PredicateClass
  | p
  | textP
  /-- `AndP`, `OrP` or another subclass. -/
  | subclass
  deriving DecidableEq

mutual
/-- A `Bytecode`; `exact` when its class is `Bytecode` and no subclass. -/
inductive Bytecode
  | mk (exact : Bool) (sourceInstructions stepInstructions : List Instruction)

/-- A `Bytecode.Instruction`. -/
inductive Instruction
  | mk (operator : Option JString) (arguments : List Value)

/-- An object, or null. -/
inductive Value
  | null
  | string (text : JString)
  | bytecode (code : Bytecode)
  /-- `biPredicate` is `getBiPredicate()`, null or an object with that
  `toString()`; `value` is `getValue()`. -/
  | predicate (cls : PredicateClass) (biPredicate : Option (Option JString)) (value : Value)
  | collection (items : List Value)
  /-- The keys in iteration order, and their values. -/
  | map (keys values : List Value)
  | integer (n : Int32)
  | long (n : Int64)
  | double (bits : UInt64)
  | float (bits : UInt32)
  | boolean (b : Bool)
  | date (millis : Int64)
  | uuid (most least : UInt64)
  | enum (token : EnumToken)
  | other (className : JString)
end

/-- The object is a `Bytecode`, and not one of a subclass. -/
def Bytecode.exact : Bytecode → Bool
  | .mk exact _ _ => exact

/-- `getSourceInstructions()`. -/
def Bytecode.sourceInstructions : Bytecode → List Instruction
  | .mk _ source _ => source

/-- `getStepInstructions()`. -/
def Bytecode.stepInstructions : Bytecode → List Instruction
  | .mk _ _ steps => steps

/-- `getOperator()`. -/
def Instruction.operator : Instruction → Option JString
  | .mk operator _ => operator

/-- `getArguments()`. -/
def Instruction.arguments : Instruction → List Value
  | .mk _ arguments => arguments

/-- No array, traversal, map, list or set: what `addStep` keeps as it is. -/
def Value.plain : Value → Bool
  | .collection _ | .map _ _ | .other _ => false
  | _ => true

/-! ## Nesting -/

/-- `code` is reached from a value through predicates alone: it is the
value, the operand of a predicate, or a member of an operand. -/
inductive Holds : Value → Bytecode → Prop
  | here : Holds (.bytecode code) code
  | operand : Holds value code → Holds (.predicate cls name value) code
  | member : item ∈ items → Holds item code → Holds (.predicate cls name (.collection items)) code

/-- A bytecode occurs in another at a depth, itself at depth 0. -/
inductive Nested : Bytecode → Nat → Bytecode → Prop
  | root : Nested code 0 code
  | child : instruction ∈ code.stepInstructions → argument ∈ instruction.arguments →
      Holds argument child → Nested child depth below → Nested code (depth + 1) below

/-- A string reached from a value through predicates alone. -/
inductive Names : Value → JString → Prop
  | here : Names (.string text) text
  | operand : Names value text → Names (.predicate cls name value) text
  | member : item ∈ items → Names item text → Names (.predicate cls name (.collection items)) text

mutual
/-- The instructions of the whole tree. -/
def Bytecode.instructions : Bytecode → Nat
  | .mk _ _ steps => countSteps steps

/-- The instructions of a list of steps, with those in their arguments. -/
def countSteps : List Instruction → Nat
  | [] => 0
  | .mk _ arguments :: rest => 1 + countArguments arguments + countSteps rest

/-- The instructions in a list of values. -/
def countArguments : List Value → Nat
  | [] => 0
  | argument :: rest => argument.instructions + countArguments rest

/-- The instructions in a value. -/
def Value.instructions : Value → Nat
  | .bytecode code => code.instructions
  | .predicate _ _ (.collection items) => countArguments items
  | .predicate _ _ value => value.instructions
  | _ => 0
end

/-! ## Requests -/

/-- An authenticated channel user. -/
structure AuthenticatedUser where
  name : JString
  isAnonymous : Bool

/-- A `RequestMessage`; its argument map as entries in iteration order. -/
structure RequestMessage where
  requestId : UInt64 × UInt64
  op : Option JString
  processor : Option JString
  args : List (Value × Value)

/-- The value is the text of a key. -/
def Value.isKey (key : JString) : Value → Bool
  | .string text => text == key
  | _ => false

/-- `args.get(key)` for a string key, and none where the map has no such key. -/
def RequestMessage.arg (request : RequestMessage) (key : JString) : Option Value :=
  (request.args.find? fun entry => entry.1.isKey key).map (·.2)

/-- `args.keySet()`. -/
def RequestMessage.keys (request : RequestMessage) : List Value := request.args.map (·.1)

end CartyxInfra.Gremlin
