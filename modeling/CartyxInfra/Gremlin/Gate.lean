/-
The request gate in front of the graph server: `IdentityChannelizer`'s
`RequestGate`, the `WebSocketAuthorizationHandler` it extends, and the policy
both ask. A handler's answer to one message is the list of things it does to
the channel, or the exception that leaves it.

`forwarded_application`: what the gate forwards for anyone but the operator
is a bytecode request of the application whose code the policy admits, and
the code is the one submitted.
-/
import CartyxInfra.Gremlin.Policy

namespace CartyxInfra.Gremlin

open JString

/-- A message, as far as the handler tells messages apart. -/
inductive Message
  | request (request : RequestMessage)
  | other

/-- The code of a denial. -/
inductive ResponseStatusCode
  | UNAUTHORIZED
  deriving DecidableEq

/-- A response, as the handler builds it. -/
structure ResponseMessage where
  requestId : UInt64 × UInt64
  code : ResponseStatusCode
  statusMessage : JString

/-- What the handler has the channel do. -/
inductive ChannelAction
  | fireChannelRead (message : Message)
  | writeAndFlush (response : ResponseMessage)
  | close

/-- `AuthenticatedUser.ANONYMOUS_USER`. -/
def ANONYMOUS_USER : AuthenticatedUser := ⟨utf16 "anonymous", true⟩

namespace WebSocketAuthorizationHandler

/-- `(Bytecode) args.get("gremlin")`. -/
def castBytecode : Option Value → Except Thrown (Option Bytecode)
  | none | some .null => .ok none
  | some (.bytecode code) => .ok (some code)
  | some _ => .error .runtime

/-- `(Map<String, String>) args.get("aliases")`. -/
def castMap : Option Value → Except Thrown (Option Value)
  | none | some .null => .ok none
  | some (.map keys values) => .ok (some (.map keys values))
  | some _ => .error .runtime

/-- The operation switch. -/
def dispatch (tp : TinkerPop) (user : AuthenticatedUser) (request : RequestMessage) :
    Except Thrown ChannelAction :=
  match request.op with
  | none => .error .runtime
  | some op =>
    if op = utf16 "bytecode" then do
      let bytecode ← castBytecode (request.arg (utf16 "gremlin"))
      let aliases ← castMap (request.arg (utf16 "aliases"))
      let restrictedBytecode ← authorize tp (some user) bytecode aliases
      .ok (.fireChannelRead (.request (tp.withCode request
        (restrictedBytecode.elim .null .bytecode) (aliases.getD .null))))
    else if op = utf16 "eval" then do
      authorizeScript (some user)
      .ok (.fireChannelRead (.request request))
    else if op = utf16 "close" then .ok (.fireChannelRead (.request request))
    else .error .authorization

/-- The answer to a request that is denied. -/
def interruptEvaluation (request : RequestMessage) (errorMessage : String) : ChannelAction :=
  .writeAndFlush ⟨request.requestId, .UNAUTHORIZED, utf16 ("Failed to authorize: " ++ errorMessage)⟩

/-- `channelRead`, for the user on the channel. -/
def channelRead (tp : TinkerPop) (channelUser : Option AuthenticatedUser) : Message → List ChannelAction
  | .request request =>
    match dispatch tp (channelUser.getD ANONYMOUS_USER) request with
    | .ok action => [action]
    | .error .authorization => [interruptEvaluation request "Request denied"]
    | .error .runtime => [interruptEvaluation request "Unknown error in gremlin-server"]
  | .other => [.close]

end WebSocketAuthorizationHandler

/-- `RequestGate.channelRead`. Only an `AuthorizationException` of
`authorizeRequest` is caught. -/
def RequestGate.channelRead (tp : TinkerPop) (user : Option AuthenticatedUser) :
    Message → Except Thrown (List ChannelAction)
  | .request request =>
    match authorizeRequest user request with
    | .ok _ => .ok (WebSocketAuthorizationHandler.channelRead tp user (.request request))
    | .error .authorization =>
      .ok [.writeAndFlush ⟨request.requestId, .UNAUTHORIZED, utf16 "Request denied"⟩]
    | .error .runtime => .error .runtime
  | .other => .ok (WebSocketAuthorizationHandler.channelRead tp user .other)

/-! ## The envelope -/

/-- An Integer or a Long in a range. -/
def IntegerBetween (min max : Int) : Value → Prop
  | .integer n => min ≤ n.toInt ∧ n.toInt ≤ max
  | .long n => min ≤ n.toInt ∧ n.toInt ≤ max
  | _ => False

/-- A client name the policy lets pass. -/
def UserAgent (v : Value) : Prop :=
  ∃ agent, v = .string agent ∧ utf16 "cartyx-" <+: agent ∧ agent.length ≤ 64

/-- The application's service account, under either of its names. -/
def ApplicationUser (user : Option AuthenticatedUser) : Prop :=
  ∃ u, user = some u ∧ u.isAnonymous = false ∧
    (u.name = utf16 "cartyx_identity" ∨ u.name = utf16 "cartyx_app")

/-- The operator. -/
def OperatorUser (user : Option AuthenticatedUser) : Prop :=
  ∃ u, user = some u ∧ u.isAnonymous = false ∧ u.name = utf16 "cartyx_admin"

/-- The map of `g` to `g` and nothing else. -/
def gAliases : Value := .map [.string (utf16 "g")] [.string (utf16 "g")]

/-- A request the application may make, its code aside. -/
structure Envelope (request : RequestMessage) : Prop where
  op : request.op = some (utf16 "bytecode")
  processor : request.processor = some (utf16 "traversal")
  keys : ∀ key ∈ request.keys, ∃ name ∈ ARGUMENTS, key = .string name
  aliases : request.arg (utf16 "aliases") = some gAliases
  batchSize : ∀ v, request.arg (utf16 "batchSize") = some v → IntegerBetween 1 1024 v
  evaluationTimeout : ∀ v, request.arg (utf16 "evaluationTimeout") = some v → IntegerBetween 50 15000 v
  userAgent : ∀ v, request.arg (utf16 "userAgent") = some v → UserAgent v

theorem integer_iff {v : Value} {min max : Int} : integer v min max = true ↔ IntegerBetween min max v := by
  cases v <;> simp [integer, IntegerBetween]

theorem aliasesEqual_iff {v : Option Value} : aliasesEqual v = true ↔ v = some gAliases := by
  constructor
  · intro h
    unfold aliasesEqual at h
    split at h
    · next key value =>
      simp only [Bool.and_eq_true, beq_iff_eq] at h
      rw [h.1, h.2, gAliases]
    · simp at h
  · rintro rfl
    simp [aliasesEqual, gAliases]

theorem containsAll_ok {set : List JString} : ∀ {keys : List Value}, containsAll set keys = .ok true →
    ∀ key ∈ keys, ∃ name ∈ set, key = .string name
  | [], _ => by simp
  | .string text :: rest, h => by
    simp only [containsAll] at h
    split at h
    · next ht =>
      simp only [List.forall_mem_cons]
      exact ⟨⟨text, by simpa using ht, rfl⟩, containsAll_ok h⟩
    · simp at h
  | .null :: _, h | .bytecode _ :: _, h | .predicate _ _ _ :: _, h | .collection _ :: _, h
  | .map _ _ :: _, h | .integer _ :: _, h | .long _ :: _, h | .double _ :: _, h | .float _ :: _, h
  | .boolean _ :: _, h | .date _ :: _, h | .uuid _ _ :: _, h | .enum _ :: _, h | .other _ :: _, h => by
    simp [containsAll] at h

theorem admin_iff {user : Option AuthenticatedUser} : admin user = true ↔ OperatorUser user := by
  cases user <;> simp [admin, OperatorUser]

theorem application_ok {user : Option AuthenticatedUser} {u : Unit} (h : application user = .ok u) :
    ApplicationUser user := by
  cases user with
  | none => simp [application] at h
  | some user =>
    simp only [application, require_ok, Bool.and_eq_true, Bool.not_eq_true'] at h
    refine ⟨user, rfl, h.1, ?_⟩
    simpa [APPLICATION] using h.2

theorem ifPresent_ok {arg : Option Value} {check : Value → Bool} {u : Unit} :
    ifPresent arg check = .ok u ↔ ∀ v, arg = some v → check v = true := by
  cases arg <;> simp [ifPresent, require_ok]

theorem authorizeRequest_ok {user : Option AuthenticatedUser} {request : RequestMessage} {u : Unit}
    (hu : admin user = false) (h : authorizeRequest user request = .ok u) :
    ApplicationUser user ∧ Envelope request := by
  simp only [authorizeRequest, hu, Bool.false_eq_true, if_false, bind_ok, require_ok, ifPresent_ok,
    Bool.and_eq_true, beq_iff_eq, aliasesEqual_iff, integer_iff] at h
  obtain ⟨_, ha, _, ⟨hop, hproc⟩, b, hkeys, _, ⟨⟨rfl, -⟩, -⟩, _, -, _, halias, _, hbatch, _, htimeout,
    hagent⟩ := h
  refine ⟨application_ok ha, hop, hproc, containsAll_ok hkeys, halias, hbatch, htimeout, fun v hv => ?_⟩
  have := hagent v hv
  split at this
  · next agent =>
    simp only [Bool.and_eq_true, List.isPrefixOf_iff_prefix, decide_eq_true_eq] at this
    exact ⟨agent, rfl, this⟩
  · simp at this

/-! ## The code -/

theorem authorize_ok {tp : TinkerPop} (htp : tp.Documented) {user : Option AuthenticatedUser}
    {code : Option Bytecode} {aliases : Option Value} {checked : Option Bytecode} (hu : admin user = false)
    (h : authorize tp user code aliases = .ok checked) :
    ApplicationUser user ∧ aliases = some gAliases ∧ checked = code ∧ ∃ c, code = some c ∧ Admitted c := by
  simp only [authorize, hu, Bool.false_eq_true, if_false, bind_ok, require_ok, aliasesEqual_iff] at h
  obtain ⟨_, ha, _, halias, h⟩ := h
  cases code with
  | none => simp at h
  | some code =>
    simp only [bind_ok, Except.ok.injEq] at h
    obtain ⟨⟨c, n⟩, hc, rfl⟩ := h
    obtain ⟨rfl, hl, hn⟩ := copy_ok htp _ hc
    refine ⟨application_ok ha, halias, rfl, _, rfl, hl, ?_⟩
    have := hn.bound (Nat.zero_le _)
    rw [hn.sum] at this
    omega

namespace WebSocketAuthorizationHandler

theorem castBytecode_some {v : Option Value} {code : Bytecode} (h : castBytecode v = .ok (some code)) :
    v = some (.bytecode code) := by
  unfold castBytecode at h
  split at h <;> simp_all

/-- What the handler forwards of a bytecode request: the request with the
code the policy returned. -/
theorem forwarded_bytecode {tp : TinkerPop} (htp : tp.Documented) {user : AuthenticatedUser}
    {request : RequestMessage} {out : Message} (hop : request.op = some (utf16 "bytecode"))
    (hu : admin (some user) = false)
    (h : .fireChannelRead out ∈ channelRead tp (some user) (.request request)) :
    ∃ code, request.arg (utf16 "gremlin") = some (.bytecode code) ∧ Admitted code ∧
      out = .request (tp.withCode request (.bytecode code) gAliases) := by
  simp only [channelRead, Option.getD_some] at h
  split at h
  · next action hd =>
    simp only [List.mem_singleton] at h
    subst h
    simp only [dispatch, hop, if_true, bind_ok, Except.ok.injEq, ChannelAction.fireChannelRead.injEq] at hd
    obtain ⟨code, hcode, aliases, haliases, checked, hauth, rfl⟩ := hd
    obtain ⟨-, rfl, rfl, c, rfl, hc⟩ := authorize_ok htp hu hauth
    exact ⟨c, castBytecode_some hcode, hc, rfl⟩
  · simp [interruptEvaluation] at h
  · simp [interruptEvaluation] at h

end WebSocketAuthorizationHandler

theorem Envelope.withCode {tp : TinkerPop} (htp : tp.Documented) {request : RequestMessage}
    (h : Envelope request) (code : Value) : Envelope (tp.withCode request code gAliases) := by
  have arg : ∀ key, key ≠ utf16 "aliases" → key ≠ utf16 "gremlin" →
      (tp.withCode request code gAliases).arg key = request.arg key := by
    intro key ha hg
    rw [htp.arg, if_neg ha, if_neg hg]
  refine ⟨(htp.op ..).trans h.op, (htp.processor ..).trans h.processor, fun key hk => ?_, ?_, ?_, ?_, ?_⟩
  · rcases htp.keys _ _ _ key hk with hk | rfl | rfl
    · exact h.keys key hk
    · exact ⟨_, by decide, rfl⟩
    · exact ⟨_, by decide, rfl⟩
  · rw [htp.arg, if_pos rfl]
  · rw [arg _ (by decide) (by decide)]
    exact h.batchSize
  · rw [arg _ (by decide) (by decide)]
    exact h.evaluationTimeout
  · rw [arg _ (by decide) (by decide)]
    exact h.userAgent

/-- **What the gate forwards.** A message forwarded for anyone but the
operator is a bytecode request of the application, in and out, and the code
that goes on is the submitted one, admitted at every nesting level. -/
theorem forwarded_application {tp : TinkerPop} (htp : tp.Documented) {user : Option AuthenticatedUser}
    {msg out : Message} {actions : List ChannelAction} (hu : ¬ OperatorUser user)
    (h : RequestGate.channelRead tp user msg = .ok actions) (hf : .fireChannelRead out ∈ actions) :
    ∃ request forwarded code, msg = .request request ∧ out = .request forwarded ∧
      ApplicationUser user ∧ Envelope request ∧ Envelope forwarded ∧
      forwarded.requestId = request.requestId ∧
      request.arg (utf16 "gremlin") = some (.bytecode code) ∧
      forwarded.arg (utf16 "gremlin") = some (.bytecode code) ∧ Admitted code := by
  have hu' : admin user = false := by simpa [← admin_iff] using hu
  cases msg with
  | other =>
    simp only [RequestGate.channelRead, WebSocketAuthorizationHandler.channelRead, Except.ok.injEq] at h
    simp [← h] at hf
  | request request =>
    simp only [RequestGate.channelRead] at h
    split at h
    · next _ hr =>
      obtain ⟨happ, henv⟩ := authorizeRequest_ok hu' hr
      simp only [Except.ok.injEq] at h
      subst h
      obtain ⟨u, rfl, hname⟩ := happ
      obtain ⟨code, hcode, hadm, rfl⟩ :=
        WebSocketAuthorizationHandler.forwarded_bytecode htp henv.op hu' hf
      refine ⟨request, _, code, rfl, rfl, ⟨u, rfl, hname⟩, henv, henv.withCode htp _, htp.requestId ..,
        hcode, ?_, hadm⟩
      rw [htp.arg, if_neg (by decide), if_pos rfl]
    · simp only [Except.ok.injEq] at h
      subst h
      simp at hf
    · simp at h

/-! ## A TinkerPop that behaves as documented -/

/-- `args.put(key, v)`. -/
def put (args : List (Value × Value)) (key : JString) (v : Value) : List (Value × Value) :=
  args.filter (fun entry => !entry.1.isKey key) ++ [(.string key, v)]

/-- Appends an instruction; copies a request with two arguments put. -/
def TinkerPop.reference : TinkerPop where
  addStep code operator arguments :=
    .mk code.exact code.sourceInstructions (code.stepInstructions ++ [.mk (some operator) arguments])
  withCode m code aliases :=
    { m with args := put (put m.args (utf16 "gremlin") code) (utf16 "aliases") aliases }

theorem isKey_unique {v : Value} {key key' : JString} (h : v.isKey key = true) (hne : key' ≠ key) :
    v.isKey key' = false := by
  cases v with
  | string text =>
    simp only [Value.isKey, beq_iff_eq] at h
    simp [Value.isKey, h, hne.symm]
  | _ => rfl

theorem find?_put (args : List (Value × Value)) (key key' : JString) (v : Value) :
    ((put args key v).find? fun entry => entry.1.isKey key').map (·.2) =
      if key' = key then some v else (args.find? fun entry => entry.1.isKey key').map (·.2) := by
  simp only [put, List.find?_append, List.find?_filter]
  by_cases hk : key' = key
  · subst hk
    have : (args.find? fun _ => false) = none := by simp
    simp [Value.isKey, this]
  · have hp : (fun entry : Value × Value => !entry.1.isKey key && entry.1.isKey key') =
        fun entry => entry.1.isKey key' := by
      funext entry
      by_cases h : entry.1.isKey key = true
      · simp [h, isKey_unique h hk]
      · simp [h]
    have hlast : ((.string key, v) : Value × Value).1.isKey key' = false := by
      simp [Value.isKey, Ne.symm hk]
    simp [hp, hk, hlast]

theorem TinkerPop.reference_documented : TinkerPop.reference.Documented where
  addStep _ _ _ _ _ := rfl
  requestId _ _ _ := rfl
  op _ _ _ := rfl
  processor _ _ _ := rfl
  keys m code aliases key hk := by
    simp only [RequestMessage.keys, reference, put, List.mem_map, List.mem_append, List.mem_filter,
      List.mem_singleton] at hk ⊢
    obtain ⟨entry, (⟨(⟨hm, -⟩ | rfl), -⟩ | rfl), rfl⟩ := hk
    · exact .inl ⟨entry, hm, rfl⟩
    · exact .inr (.inl rfl)
    · exact .inr (.inr rfl)
  arg m code aliases key := by
    simp only [RequestMessage.arg, reference, find?_put]

/-- The application's user. -/
def sampleUser : Option AuthenticatedUser := some ⟨utf16 "cartyx_app", false⟩

/-- `V().has("scope", within("a", "b")).where(out("WITHIN"))`. -/
def sampleCode : Bytecode :=
  .mk true [] [
    .mk (some (utf16 "V")) [],
    .mk (some (utf16 "has")) [.string (utf16 "scope"),
      .predicate .p (some (some (utf16 "within"))) (.collection [.string (utf16 "a"), .string (utf16 "b")])],
    .mk (some (utf16 "where")) [.bytecode
      (.mk true [] [.mk (some (utf16 "out")) [.string (utf16 "WITHIN")]])]]

/-- A request of the application. -/
def sampleRequest : RequestMessage where
  requestId := (1, 2)
  op := some (utf16 "bytecode")
  processor := some (utf16 "traversal")
  args := [(.string (utf16 "gremlin"), .bytecode sampleCode), (.string (utf16 "aliases"), gAliases),
    (.string (utf16 "batchSize"), .integer 64)]

theorem forwarded_application_sample :
    ∃ request forwarded code, Message.request sampleRequest = .request request ∧
      Message.request (TinkerPop.reference.withCode sampleRequest (.bytecode sampleCode) gAliases) =
        .request forwarded ∧
      ApplicationUser sampleUser ∧ Envelope request ∧ Envelope forwarded ∧
      forwarded.requestId = request.requestId ∧
      request.arg (utf16 "gremlin") = some (.bytecode code) ∧
      forwarded.arg (utf16 "gremlin") = some (.bytecode code) ∧ Admitted code :=
  have h : RequestGate.channelRead .reference sampleUser (.request sampleRequest) =
      .ok [.fireChannelRead (.request (TinkerPop.reference.withCode sampleRequest (.bytecode sampleCode)
        gAliases))] := rfl
  have hu : ¬ OperatorUser sampleUser := by rw [← admin_iff]; decide
  forwarded_application TinkerPop.reference_documented hu h (List.mem_singleton_self _)

end CartyxInfra.Gremlin
