/-
One outcome a request: the gate forwards it, or answers with a refusal that
tells the request's id and the stage that refused, and nothing else of it.

The handler that `RequestGate` extends turns every exception into a refusal.
The gate itself catches the policy's own alone, and the policy asks an
immutable set for every key of the client's map: a null key throws.
`channelRead_one_iff` says exactly when one does.
-/
import CartyxInfra.Gremlin.Reserved

namespace CartyxInfra.Gremlin

open JString

variable {tp : TinkerPop} {user : Option AuthenticatedUser} {request : RequestMessage}

/-! ## Outcomes -/

/-- Where a request can be refused: by the check on its envelope, by the
check on its code, or by an unexpected exception of the handler. -/
inductive Stage
  | envelope
  | policy
  | failure
  deriving DecidableEq

/-- The text a client is told. -/
def Stage.statusMessage : Stage → JString
  | .envelope => utf16 "Request denied"
  | .policy => utf16 "Failed to authorize: Request denied"
  | .failure => utf16 "Failed to authorize: Unknown error in gremlin-server"

/-- The answer to a request of an id that a stage refuses. -/
def Stage.response (stage : Stage) (requestId : UInt64 × UInt64) : ResponseMessage :=
  ⟨requestId, .UNAUTHORIZED, stage.statusMessage⟩

/-- The stage refuses the request. -/
def RefusedAt (tp : TinkerPop) (user : Option AuthenticatedUser) (request : RequestMessage) : Stage → Prop
  | .envelope => authorizeRequest user request = .error .authorization
  | .policy => authorizeRequest user request = .ok () ∧
      WebSocketAuthorizationHandler.dispatch tp (user.getD ANONYMOUS_USER) request = .error .authorization
  | .failure => authorizeRequest user request = .ok () ∧
      WebSocketAuthorizationHandler.dispatch tp (user.getD ANONYMOUS_USER) request = .error .runtime

/-- One message forwarded and no response, or one response, of the stage
that refuses, and nothing forwarded. -/
inductive OneOutcome (tp : TinkerPop) (user : Option AuthenticatedUser) (request : RequestMessage) :
    List ChannelAction → Prop
  | forwarded (message : Message) : OneOutcome tp user request [.fireChannelRead message]
  | refused (stage : Stage) : RefusedAt tp user request stage →
      OneOutcome tp user request [.writeAndFlush (stage.response request.requestId)]

/-- A bytecode request of the application in whose argument map a null key
comes before any unknown one. -/
structure NullKey (user : Option AuthenticatedUser) (request : RequestMessage) : Prop where
  user : ApplicationUser user
  op : request.op = some (utf16 "bytecode")
  processor : request.processor = some (utf16 "traversal")
  key : ∃ known rest, request.keys = known ++ .null :: rest ∧
    ∀ key ∈ known, ∃ name ∈ ARGUMENTS, key = .string name

/-! ## What the checks throw -/

theorem ifPresent_error {arg : Option Value} {check : Value → Bool} {e : Thrown}
    (h : ifPresent arg check = .error e) : e = .authorization := by
  cases arg with
  | none => cases h
  | some v => exact (require_error.mp h).2

theorem application_error {e : Thrown} (h : application user = .error e) : e = .authorization := by
  cases user with
  | none =>
    cases h
    rfl
  | some u => exact (require_error.mp h).2

/-- The set is asked for the keys up to the first it does not have. -/
theorem containsAll_error {set : List JString} {e : Thrown} : ∀ {keys : List Value},
    containsAll set keys = .error e ↔ e = .runtime ∧ ∃ known rest, keys = known ++ .null :: rest ∧
      ∀ key ∈ known, ∃ name ∈ set, key = .string name
  | [] => by simp [containsAll]
  | .null :: keys => by
    have hfirst : ∃ known rest, Value.null :: keys = known ++ .null :: rest ∧
        ∀ key ∈ known, ∃ name ∈ set, key = .string name := ⟨[], keys, rfl, by simp⟩
    rw [containsAll, and_iff_left hfirst, Except.error.injEq, eq_comm]
  | .string text :: keys => by
    have hcons : (∃ known rest, Value.string text :: keys = known ++ .null :: rest ∧
        ∀ key ∈ known, ∃ name ∈ set, key = .string name) ↔
        text ∈ set ∧ ∃ known rest, keys = known ++ .null :: rest ∧
          ∀ key ∈ known, ∃ name ∈ set, key = .string name := by
      constructor
      · rintro ⟨known, rest, he, hk⟩
        cases known with
        | nil => cases he
        | cons key known =>
          obtain ⟨rfl, rfl⟩ := List.cons.inj he
          obtain ⟨⟨name, hn, hname⟩, hk⟩ := List.forall_mem_cons.mp hk
          cases hname
          exact ⟨hn, known, rest, rfl, hk⟩
      · rintro ⟨ht, known, rest, rfl, hk⟩
        exact ⟨.string text :: known, rest, rfl, List.forall_mem_cons.mpr ⟨⟨text, ht, rfl⟩, hk⟩⟩
    rw [hcons, containsAll]
    split
    · next ht =>
      rw [containsAll_error]
      simp only [List.contains_eq_mem, decide_eq_true_eq] at ht
      simp [ht]
    · next ht => simpa using fun _ ht' => absurd ht' (by simpa using ht)
  | .bytecode _ :: _ | .predicate _ _ _ :: _ | .collection _ :: _ | .map _ _ :: _ | .integer _ :: _
  | .long _ :: _ | .double _ :: _ | .float _ :: _ | .boolean _ :: _ | .date _ :: _ | .uuid _ _ :: _
  | .enum _ :: _ | .other _ :: _ => by
    simp only [containsAll, reduceCtorEq, false_iff, not_and, not_exists]
    rintro - known rest he hk
    cases known with
    | nil => cases he
    | cons key known =>
      obtain ⟨name, -, hname⟩ := hk key (List.mem_cons_self ..)
      cases hname
      cases he

/-- The check on the envelope throws an exception of its own exactly at a null key. -/
theorem authorizeRequest_runtime :
    authorizeRequest user request = .error .runtime ↔ NullKey user request := by
  constructor
  · intro h
    unfold authorizeRequest at h
    split at h
    · cases h
    · next hu =>
      rcases bind_error.mp h with h | ⟨_, happ, h⟩
      · cases application_error h
      rcases bind_error.mp h with h | ⟨_, hop, h⟩
      · cases (require_error.mp h).2
      simp only [require_ok, Bool.and_eq_true, beq_iff_eq] at hop
      rcases bind_error.mp h with h | ⟨b, -, h⟩
      · exact ⟨application_ok happ, hop.1, hop.2, (containsAll_error.mp h).2⟩
      -- What comes after the keys throws the policy's own exception alone.
      simp only [bind_error, require_error, reduceCtorEq, and_false, false_or] at h
      obtain ⟨_, -, _, -, _, -, h | ⟨_, -, h | ⟨_, -, h⟩⟩⟩ := h
      all_goals cases ifPresent_error h
  · intro h
    have hkeys : containsAll ARGUMENTS request.keys = .error .runtime := containsAll_error.mpr ⟨rfl, h.key⟩
    simp [authorizeRequest, h.user.not_admin, h.user.application, h.op, h.processor, hkeys, require, bind,
      Except.bind]

/-! ## The gate -/

namespace WebSocketAuthorizationHandler

theorem dispatch_forwards {user : AuthenticatedUser} {action : ChannelAction}
    (h : dispatch tp user request = .ok action) : ∃ message, action = .fireChannelRead message := by
  unfold dispatch at h
  split at h
  · cases h
  · split at h
    · simp only [bind_ok, Except.ok.injEq] at h
      obtain ⟨_, -, _, -, _, -, rfl⟩ := h
      exact ⟨_, rfl⟩
    · split at h
      · simp only [bind_ok, Except.ok.injEq] at h
        obtain ⟨_, -, rfl⟩ := h
        exact ⟨_, rfl⟩
      · split at h
        · cases h
          exact ⟨_, rfl⟩
        · cases h

/-- The handler alone has one outcome for every request. -/
theorem channelRead_one (hr : authorizeRequest user request = .ok ()) :
    OneOutcome tp user request (channelRead tp user (.request request)) := by
  have hpolicy : utf16 ("Failed to authorize: " ++ "Request denied") = Stage.policy.statusMessage := by
    decide
  have hfailure : utf16 ("Failed to authorize: " ++ "Unknown error in gremlin-server") =
      Stage.failure.statusMessage := by decide
  simp only [channelRead, interruptEvaluation, hpolicy, hfailure]
  split
  · next action hd =>
    obtain ⟨message, rfl⟩ := dispatch_forwards hd
    exact .forwarded message
  · next hd => exact .refused .policy ⟨hr, hd⟩
  · next hd => exact .refused .failure ⟨hr, hd⟩

end WebSocketAuthorizationHandler

/-- **One outcome.** A request, whoever sends it and whatever is in it, has
exactly one outcome, without an exception, unless it is a bytecode request of
the application with a null among its argument keys, before any unknown one. -/
theorem channelRead_one_iff :
    (∃ actions, RequestGate.channelRead tp user (.request request) = .ok actions ∧
      OneOutcome tp user request actions) ↔ ¬ NullKey user request := by
  rw [← authorizeRequest_runtime]
  simp only [RequestGate.channelRead]
  split
  · next hr => simpa [hr] using WebSocketAuthorizationHandler.channelRead_one hr
  · next hr =>
    have hone : OneOutcome tp user request
        [.writeAndFlush ⟨request.requestId, .UNAUTHORIZED, utf16 "Request denied"⟩] := .refused .envelope hr
    simpa [hr] using hone
  · next hr => simp [hr]

/-- A request of the application with an argument under no name. -/
def namelessRequest : RequestMessage :=
  { sampleRequest with args := (.null, .integer 1) :: sampleRequest.args }

theorem channelRead_escapes : ¬ ∀ (tp : TinkerPop) (user : Option AuthenticatedUser)
    (request : RequestMessage), ∃ actions,
      RequestGate.channelRead tp user (.request request) = .ok actions ∧
        OneOutcome tp user request actions := by
  intro h
  obtain ⟨actions, hactions, -⟩ := h .reference sampleUser namelessRequest
  have hescapes : RequestGate.channelRead .reference sampleUser (.request namelessRequest) =
      .error .runtime := rfl
  exact absurd (hactions.symm.trans hescapes) nofun

end CartyxInfra.Gremlin
