/-
`IdentityProfileAuthorizer`: the policy every request of the application's
service account passes. `authorizeRequest` checks the envelope, `authorize`
the bytecode, by rebuilding it (`copy`, `value`) with one instruction counter
for the whole tree.
-/
import CartyxInfra.Gremlin.Values

namespace CartyxInfra.Gremlin

open JString

/-- What a check can throw: the policy's `AuthorizationException`, or another
exception (a null where the code asks an immutable set for it). -/
inductive Thrown
  | authorization
  | runtime
  deriving DecidableEq

/-- What is used of TinkerPop. -/
structure TinkerPop where
  /-- `code.addStep(operator, arguments)`, as the code it leaves. -/
  addStep : Bytecode → JString → List Value → Bytecode
  /-- `RequestMessage.from(m).addArg("gremlin", code).addArg("aliases", aliases).create()`. -/
  withCode : RequestMessage → Value → Value → RequestMessage

/-- What TinkerPop documents of the two. -/
structure TinkerPop.Documented (tp : TinkerPop) : Prop where
  /-- Arguments that need no flattening or conversion are kept as they are. -/
  addStep : ∀ source steps operator arguments, (∀ argument ∈ arguments, argument.plain = true) →
    tp.addStep (.mk true source steps) operator arguments =
      .mk true source (steps ++ [.mk (some operator) arguments])
  requestId : ∀ m code aliases, (tp.withCode m code aliases).requestId = m.requestId
  op : ∀ m code aliases, (tp.withCode m code aliases).op = m.op
  processor : ∀ m code aliases, (tp.withCode m code aliases).processor = m.processor
  keys : ∀ m code aliases, ∀ key ∈ (tp.withCode m code aliases).keys,
    key ∈ m.keys ∨ key = .string (utf16 "gremlin") ∨ key = .string (utf16 "aliases")
  arg : ∀ m code aliases key, (tp.withCode m code aliases).arg key =
    if key = utf16 "aliases" then some aliases
    else if key = utf16 "gremlin" then some code
    else m.arg key

/-! ## Constants -/

/-- The arguments a request may have. -/
def ARGUMENTS : List JString :=
  ["gremlin", "aliases", "batchSize", "evaluationTimeout", "userAgent"].map utf16

/-- The most steps of a request, over all of its traversals. -/
def MAX_STEPS : Nat := 256

/-- The deepest nesting of values. -/
def MAX_DEPTH : Nat := 8

/-- The longest string. -/
def MAX_STRING : Nat := 1 <<< 20

/-- The largest collection. -/
def MAX_COLLECTION : Nat := 1024

/-- Read, write, filter, traverse and shape results. No lambdas, scripts, OLAP or configuration. -/
def STEPS : List JString :=
  ["V", "E", "addV", "addE", "property", "from", "to", "drop",
    "has", "hasLabel", "hasNot", "is", "where", "and", "or", "not", "coalesce", "choose", "optional",
    "out", "in", "both", "outE", "inE", "bothE", "outV", "inV", "otherV", "bothV",
    "values", "valueMap", "elementMap", "properties", "label", "id", "key", "value",
    "count", "limit", "range", "skip", "tail", "order", "by", "dedup", "fold", "unfold",
    "project", "select", "as", "identity", "union", "repeat", "times", "until", "emit",
    "simplePath", "group", "groupCount", "inject", "constant", "sum", "min", "max", "mean",
    "barrier", "cap", "store", "aggregate", "local", "sideEffect"].map utf16

/-- Labels that belong to schema/migration bookkeeping, never to application data. -/
def RESERVED_LABELS : List JString := ["GraphSchema"].map utf16

/-- What the keys of the schema's registry begin with. -/
def RESERVED_PREFIXES : List JString := ["graphSchema", "graphProbe"].map utf16

/-- The steps that take property keys. -/
def KEY_STEPS : List JString :=
  ["has", "hasNot", "property", "values", "valueMap", "properties", "by", "select", "as", "project",
    "group", "groupCount", "aggregate", "store", "cap"].map utf16

/-- The steps that take a label. -/
def LABEL_STEPS : List JString := ["addV", "addE", "hasLabel"].map utf16

/-- The predicates an application may use. -/
def PREDICATES : List JString :=
  ["eq", "neq", "lt", "lte", "gt", "gte", "inside", "outside", "between", "within", "without",
    "containing", "startingWith", "endingWith"].map utf16

/-- The names that an application logs in with. -/
def APPLICATION : List JString := ["cartyx_identity", "cartyx_app"].map utf16

/-- The packages whose enums are TinkerPop's and JanusGraph's fixed tokens. -/
def ENUM_PACKAGES : List JString := ["org.apache.tinkerpop.gremlin.", "org.janusgraph.core."].map utf16

/-! ## Checks -/

/-- `if (!allowed) throw new AuthorizationException(...)`. -/
def require (allowed : Bool) : Except Thrown Unit :=
  if allowed then .ok () else .error .authorization

/-- `set.contains(text)` on a set made with `Set.of`, which refuses null. -/
def contains (set : List JString) : Option JString → Except Thrown Bool
  | none => .error .runtime
  | some text => .ok (set.contains text)

/-- `set.containsAll(keys)`, key by key up to the first that is missing. -/
def containsAll (set : List JString) : List Value → Except Thrown Bool
  | [] => .ok true
  | .null :: _ => .error .runtime
  | .string text :: rest => if set.contains text then containsAll set rest else .ok false
  | _ :: _ => .ok false

/-- `ALIASES.equals(aliases)`: a map of just `g` to `g`. -/
def aliasesEqual : Option Value → Bool
  | some (.map [.string key] [.string value]) => key == utf16 "g" && value == utf16 "g"
  | _ => false

/-- A number of an integer type between the two. -/
def integer (value : Value) (min max : Int) : Bool :=
  match value with
  | .integer n => min ≤ n.toInt && n.toInt ≤ max
  | .long n => min ≤ n.toInt && n.toInt ≤ max
  | _ => false

/-- `new String(text.getBytes(UTF_8), UTF_8).equals(text)`. -/
def roundTrips (text : JString) : Bool := decodeUtf8 (getBytes text) == some text

/-- `RESERVED_PREFIXES.stream().anyMatch(text::startsWith)`. -/
def reservedKey (text : JString) : Bool := RESERVED_PREFIXES.any fun pre => pre.isPrefixOf text

/-- The user is the operator. -/
def admin : Option AuthenticatedUser → Bool
  | some user => !user.isAnonymous && user.name == utf16 "cartyx_admin"
  | none => false

/-- The user is the application, or the request is refused. -/
def application (user : Option AuthenticatedUser) : Except Thrown Unit :=
  match user with
  | some user => require (!user.isAnonymous && APPLICATION.contains user.name)
  | none => .error .authorization

/-- `if (args.containsKey(key)) require(check(args.get(key)))`. -/
def ifPresent (arg : Option Value) (check : Value → Bool) : Except Thrown Unit :=
  match arg with
  | some v => require (check v)
  | none => .ok ()

/-- Called for every request, before the stock operation switch. -/
def authorizeRequest (user : Option AuthenticatedUser) (request : RequestMessage) : Except Thrown Unit :=
  if admin user then .ok ()
  else do
    application user
    require (request.op == some (utf16 "bytecode") && request.processor == some (utf16 "traversal"))
    require ((← containsAll ARGUMENTS request.keys) && (request.arg (utf16 "gremlin")).isSome
      && (request.arg (utf16 "aliases")).isSome)
    require (match request.arg (utf16 "gremlin") with
      | some (.bytecode code) => code.exact
      | _ => false)
    require (aliasesEqual (request.arg (utf16 "aliases")))
    ifPresent (request.arg (utf16 "batchSize")) fun size => integer size 1 1024
    ifPresent (request.arg (utf16 "evaluationTimeout")) fun timeout => integer timeout 50 15000
    ifPresent (request.arg (utf16 "userAgent")) fun
      | .string agent => (utf16 "cartyx-").isPrefixOf agent && agent.length ≤ 64
      | _ => false

/-- The checks on a string argument. -/
def stringValue (operator : JString) (index : Nat) (text : JString) : Except Thrown Unit := do
  require (text.length ≤ MAX_STRING && roundTrips text)
  if LABEL_STEPS.contains operator then require (!RESERVED_LABELS.contains text)
  -- Property keys are the first argument of a key step, or the second after a cardinality.
  if KEY_STEPS.contains operator && index ≤ 1 then require (!reservedKey text)

/-- The checks on a predicate's class and name. -/
def predicateName (cls : PredicateClass) (name : Option (Option JString)) : Except Thrown Unit := do
  require (cls == .p || cls == .textP)
  match name with
    | none => .error .authorization
    | some text => require (← contains PREDICATES text)

/-- `count <= MAX_STEPS && STEPS.contains(operator)`. -/
def stepAllowed (count : Nat) (operator : Option JString) : Except Thrown Bool :=
  if count ≤ MAX_STEPS then contains STEPS operator else .ok false

mutual
/-- Validates while rebuilding; the counter goes in and comes out. -/
def copy (tp : TinkerPop) : Bytecode → Nat → Nat → Except Thrown (Bytecode × Nat)
  | .mk exact source steps, depth, count => do
    require (exact && depth ≤ MAX_DEPTH && source.isEmpty)
    copySteps tp steps depth (.mk true [] []) count

/-- The loop over the step instructions; `checked` is what is rebuilt so far. -/
def copySteps (tp : TinkerPop) :
    List Instruction → Nat → Bytecode → Nat → Except Thrown (Bytecode × Nat)
  | [], _, checked, count => .ok (checked, count)
  | .mk operator arguments :: rest, depth, checked, count => do
    require (← stepAllowed (count + 1) operator)
    let operator := operator.getD []
    -- Internal element IDs are never application identifiers.
    require (!((operator == utf16 "V" || operator == utf16 "E") && arguments.length ≠ 0))
    let (checkedArguments, count) ← copyArguments tp operator 0 arguments depth (count + 1)
    copySteps tp rest depth (tp.addStep checked operator checkedArguments) count

/-- The loop over the arguments of a step, from an index on. -/
def copyArguments (tp : TinkerPop) (operator : JString) (index : Nat) :
    List Value → Nat → Nat → Except Thrown (List Value × Nat)
  | [], _, count => .ok ([], count)
  | argument :: rest, depth, count => do
    let (checked, count) ← value tp operator index argument depth count
    let (checkedRest, count) ← copyArguments tp operator (index + 1) rest depth count
    .ok (checked :: checkedRest, count)

/-- The copy of an argument, with the number of steps so far. -/
def value (tp : TinkerPop) (operator : JString) (index : Nat) :
    Value → Nat → Nat → Except Thrown (Value × Nat)
  | .bytecode code, depth, count => do
    let (checked, count) ← copy tp code (depth + 1) count
    .ok (.bytecode checked, count)
  | .string text, _, count => do
    stringValue operator index text
    .ok (.string text, count)
  | .predicate cls name (.collection items), depth, count => do
    predicateName cls name
    require (items.length ≤ MAX_COLLECTION)
    let count ← members tp operator index items depth count
    .ok (.predicate cls name (.collection items), count)
  | .predicate cls name inner, depth, count => do
    predicateName cls name
    let (_, count) ← value tp operator index inner depth count
    -- The predicate itself goes on, not what the checks of its operand rebuilt.
    .ok (.predicate cls name inner, count)
  | .enum token, _, count => do
    require (ENUM_PACKAGES.any fun package => package.isPrefixOf token.className)
    .ok (.enum token, count)
  | .collection _, _, _ | .map _ _, _, _ | .other _, _, _ => .error .authorization
  | argument, _, count => .ok (argument, count)

/-- The loop over a predicate's collection, whose results are dropped. -/
def members (tp : TinkerPop) (operator : JString) (index : Nat) :
    List Value → Nat → Nat → Except Thrown Nat
  | [], _, count => .ok count
  | item :: rest, depth, count => do
    let (_, count) ← value tp operator index item depth count
    members tp operator index rest depth count
end

/-- `authorize(user, code, aliases)`: null, or the code to run. -/
def authorize (tp : TinkerPop) (user : Option AuthenticatedUser) (code : Option Bytecode)
    (aliases : Option Value) : Except Thrown (Option Bytecode) :=
  if admin user then .ok code
  else do
    application user
    require (aliasesEqual aliases)
    match code with
      | none => .error .authorization
      | some code => do
        let (checked, _) ← copy tp code 0 0
        .ok (some checked)

/-- `authorize(user, request)`, for scripts, which are never evaluated. -/
def authorizeScript (user : Option AuthenticatedUser) : Except Thrown Unit := require (admin user)

end CartyxInfra.Gremlin
