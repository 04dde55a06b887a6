/-
`HttpBasicAuthorizationHandler`: who owns an HTTP message when the handler is
done with it.

A message that is reference-counted is owed exactly one thing: to be handed on
unreleased, or to be released. The handler pays on every way out of a request
(`owned_iff`); what is counted and no request it forgets, where the guard of the
WebSocket frames releases before it closes.
-/
import CartyxInfra.Gremlin.Gate

namespace CartyxInfra.Gremlin

open JString

/-- A full HTTP message: what `HttpUtil.isKeepAlive` says of it, and what is parsed. -/
structure FullHttpMessage where
  keepAlive : Bool
  content : JString

/-- A message, as far as the handler and Netty's `release` tell messages apart. -/
inductive HttpMessage
  /-- A `FullHttpRequest`. -/
  | request (message : FullHttpMessage)
  /-- A `FullHttpMessage` that is none, such as a `FullHttpResponse`. -/
  | response (message : FullHttpMessage)
  /-- An object of any other class, reference-counted or not. -/
  | other (className : JString) (counted : Bool)

/-- A full HTTP message is always reference-counted. -/
def HttpMessage.referenceCounted : HttpMessage → Bool
  | .request _ | .response _ => true
  | .other _ counted => counted

/-- The codes of the errors that are sent. -/
inductive HttpResponseStatus
  | BAD_REQUEST
  | UNAUTHORIZED
  | INTERNAL_SERVER_ERROR
  deriving DecidableEq

/-- What the handler does, to the message it is given or to the channel. -/
inductive HttpEffect
  | fireChannelRead
  | release
  | sendError (status : HttpResponseStatus) (requestId : Option (UInt64 × UInt64)) (message : JString)
      (keepAlive : Bool)
  | close
  | audit (user : JString)
  | warn (className : JString)
  deriving DecidableEq

/-- The effect is an error to the client. -/
def HttpEffect.isError : HttpEffect → Bool
  | .sendError .. => true
  | _ => false

/-- What it did, and whether an exception left it then. -/
structure HttpHandled where
  effects : List HttpEffect
  thrown : Bool
  deriving DecidableEq

/-- The authorizer of the handler: its class's name and what it decides. -/
structure HttpAuthorizer where
  simpleName : JString
  authorize : AuthenticatedUser → RequestMessage → Except Thrown Unit

namespace HttpBasicAuthorizationHandler

/-- `channelRead`. The parser returns a request, or throws an `IllegalArgumentException`;
the cast before it throws what nothing catches. -/
def channelRead (getRequestMessageFromHttpRequest : FullHttpMessage → Option RequestMessage)
    (authorizer : HttpAuthorizer) (channelUser : Option AuthenticatedUser) : HttpMessage → HttpHandled
  | .request request =>
    match getRequestMessageFromHttpRequest request with
    | none => ⟨[.sendError .BAD_REQUEST none (utf16 "Invalid request") request.keepAlive, .release], false⟩
    | some requestMessage =>
      let user := channelUser.getD ANONYMOUS_USER
      match authorizer.authorize user requestMessage with
      | .ok () => ⟨[.fireChannelRead], false⟩
      | .error .authorization =>
        ⟨[.audit user.name, .sendError .UNAUTHORIZED (some requestMessage.requestId) (utf16 "Request denied")
          request.keepAlive, .release], false⟩
      | .error .runtime =>
        let message := authorizer.simpleName ++ utf16 " is not ready to handle requests - unknown error"
        ⟨[.sendError .INTERNAL_SERVER_ERROR (some requestMessage.requestId) message request.keepAlive,
          .release], false⟩
  | .response _ => ⟨[], true⟩
  | .other className _ => ⟨[.warn className, .close], false⟩

/-! ## Ownership -/

/-- Handed on: once, and with nothing written, released or closed. -/
structure Forwarded (effects : List HttpEffect) : Prop where
  forwards : effects.count .fireChannelRead = 1
  releases : effects.count .release = 0
  errors : effects.countP HttpEffect.isError = 0
  closes : effects.count .close = 0

/-- Kept: what is counted is released, once, and the client is told once, by an
error response or by the close of the channel. -/
structure Rejected (counted : Bool) (effects : List HttpEffect) : Prop where
  forwards : effects.count .fireChannelRead = 0
  releases : effects.count .release = if counted then 1 else 0
  told : effects.countP HttpEffect.isError + effects.count .close = 1

/-- One of the two, and no exception. -/
structure Owned (msg : HttpMessage) (handled : HttpHandled) : Prop where
  returns : handled.thrown = false
  once : Forwarded handled.effects ∨ Rejected msg.referenceCounted handled.effects

/-- What is left of a message's count when the handler is done with it, if it was one
before: the next handler's to release where it is handed on. -/
theorem Owned.balance {msg : HttpMessage} {handled : HttpHandled} (h : Owned msg handled)
    (hc : msg.referenceCounted = true) :
    handled.effects.count .fireChannelRead + handled.effects.count .release = 1 := by
  rcases h.once with hf | hr
  · rw [hf.forwards, hf.releases]
  · rw [hr.forwards, hr.releases, hc]
    rfl

variable (parse : FullHttpMessage → Option RequestMessage) (authorizer : HttpAuthorizer)
  (channelUser : Option AuthenticatedUser)

theorem forwarded_request : Forwarded [.fireChannelRead] := by
  constructor <;> rfl

/-- An error response, and the release of what it answers. -/
theorem rejected_error (status : HttpResponseStatus) (requestId : Option (UInt64 × UInt64))
    (message : JString)
    (keepAlive : Bool) : Rejected true [.sendError status requestId message keepAlive, .release] := by
  constructor <;> simp [List.countP_cons, HttpEffect.isError]

theorem Rejected.audit {counted : Bool} {effects : List HttpEffect} (h : Rejected counted effects)
    (user : JString) : Rejected counted (.audit user :: effects) := by
  obtain ⟨hforwards, hreleases, htold⟩ := h
  constructor
  · simpa using hforwards
  · simpa using hreleases
  · simpa [HttpEffect.isError] using htold

/-- Every way out of a request: the parse fails, the request is let through, denied, or
the authorizer fails. -/
theorem owned_request (request : FullHttpMessage) :
    Owned (.request request) (channelRead parse authorizer channelUser (.request request)) := by
  cases hparse : parse request with
  | none =>
    simp only [channelRead, hparse]
    exact ⟨rfl, .inr (rejected_error ..)⟩
  | some requestMessage =>
    cases hauthorize : authorizer.authorize (channelUser.getD ANONYMOUS_USER) requestMessage with
    | ok =>
      simp only [channelRead, hparse, hauthorize]
      exact ⟨rfl, .inl forwarded_request⟩
    | error thrown =>
      cases thrown with
      | authorization =>
        simp only [channelRead, hparse, hauthorize]
        exact ⟨rfl, .inr ((rejected_error ..).audit _)⟩
      | runtime =>
        simp only [channelRead, hparse, hauthorize]
        exact ⟨rfl, .inr (rejected_error ..)⟩

/-- Any other object: the channel is closed, and nothing released. -/
theorem rejected_close (className : JString) : Rejected false [.warn className, .close] := by
  constructor <;> simp [HttpEffect.isError]

theorem not_owned_close {msg : HttpMessage} (hc : msg.referenceCounted = true) (className : JString)
    (thrown : Bool) :
    ¬ Owned msg ⟨[.warn className, .close], thrown⟩ := by
  intro h
  have hbalance := h.balance hc
  simp at hbalance

/-- A message the handler is made for, or one that nobody counts. -/
def Supported : HttpMessage → Prop
  | .request _ => True
  | .response _ => False
  | .other _ counted => counted = false

/-- **A message is owned by exactly one when the handler is done with it, if and only if
it is a full HTTP request or is not reference-counted.** -/
theorem owned_iff (msg : HttpMessage) :
    Owned msg (channelRead parse authorizer channelUser msg) ↔ Supported msg := by
  cases msg with
  | request request => exact iff_of_true (owned_request parse authorizer channelUser request) trivial
  | response response => exact iff_of_false (fun h => Bool.noConfusion h.returns) id
  | other className counted =>
    cases counted with
    | false => exact iff_of_true ⟨rfl, .inr (rejected_close className)⟩ rfl
    | true => exact iff_of_false (not_owned_close rfl className false) Bool.noConfusion

/-- A part of a request that was not aggregated is a buffer, and is closed on without release. -/
theorem owned_leak : ¬ Owned (.other (utf16 "DefaultHttpContent") true)
    (channelRead (fun _ => none) ⟨utf16 "IdentityProfileAuthorizer", fun _ _ => .error .authorization⟩ none
      (.other (utf16 "DefaultHttpContent") true)) :=
  not_owned_close rfl _ _

end HttpBasicAuthorizationHandler

end CartyxInfra.Gremlin
