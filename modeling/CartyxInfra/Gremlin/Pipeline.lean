/-
The channel that `IdentityChannelizer` configures, as one system: what becomes
of a frame on its way from the socket to the executor of operations.

A message passes the handlers of the pipeline that `configure` returns, one
after the other. TinkerPop's are taken as documented: its decoders have a
message of their own for what they cannot deserialize, its SASL handler holds
requests back until one of them has authenticated the channel, after which it
is not in the pipeline any more, and the others pass on what comes by.
-/
import CartyxInfra.Gremlin.AuthenticationGate
import CartyxInfra.Gremlin.Channelizer
import CartyxInfra.Gremlin.Gate
import CartyxInfra.Gremlin.GraphSONSerializer

namespace CartyxInfra.Gremlin

open JString

/-! ## The order of the handlers -/

namespace ChannelPipeline

variable {base name : JString} {entry : JString × Handler} {handler : Handler}
  {rest pipeline : ChannelPipeline}

theorem names_sublist (h : rest.Sublist pipeline) : rest.names.Sublist pipeline.names := h.map _

/-- What is inserted before a handler is between what comes before it and the handler. -/
theorem sublist_insertBefore_between (front : ChannelPipeline) (hn : pipeline.names.Nodup)
    (h : (front ++ (base, handler) :: rest).Sublist pipeline) :
    (front ++ entry :: (base, handler) :: rest).Sublist (insertBefore base entry pipeline) := by
  induction pipeline generalizing front with
  | nil => simp at h
  | cons first tail ih =>
    rw [names_cons] at hn
    obtain ⟨hnot, hn⟩ := List.nodup_cons.1 hn
    unfold insertBefore
    split
    · next he =>
      cases front with
      | nil => exact .cons_cons _ h
      | cons first' front =>
        have htail : (front ++ (base, handler) :: rest).Sublist tail := by
          cases h with
          | cons _ h => exact (List.sublist_cons_self ..).trans h
          | cons_cons _ h => exact h
        have hmem : (base, handler) ∈ tail := htail.subset (by simp)
        exact absurd (he ▸ List.mem_map_of_mem hmem) hnot
    · next hne =>
      cases front with
      | nil =>
        cases h with
        | cons _ h => exact .cons _ (ih [] hn h)
        | cons_cons _ h => exact absurd rfl hne
      | cons first' front =>
        cases h with
        | cons _ h => exact .cons _ (ih (first' :: front) hn h)
        | cons_cons _ h => exact .cons_cons _ (ih front hn h)

theorem mem_insertBefore {entry' : JString × Handler} (h : entry' ∈ insertBefore base entry pipeline) :
    entry' = entry ∨ entry' ∈ pipeline := by
  induction pipeline with
  | nil => simp [insertBefore] at h
  | cons first tail ih =>
    unfold insertBefore at h
    split at h
    · simpa using h
    · simp only [List.mem_cons] at h ⊢
      rcases h with h | h
      · exact .inr (.inl h)
      · exact (ih h).imp_right .inr

theorem nodup_insertBefore (hn : pipeline.names.Nodup) (hname : entry.1 ∉ pipeline.names) :
    (insertBefore base entry pipeline).names.Nodup := by
  induction pipeline with
  | nil => simp [insertBefore, names]
  | cons first tail ih =>
    have hn' := hn
    rw [names_cons] at hn' hname
    obtain ⟨hnot, hn'⟩ := List.nodup_cons.1 hn'
    unfold insertBefore
    split
    · rw [names_cons]
      exact List.nodup_cons.2 ⟨hname, hn⟩
    · rw [names_cons]
      refine List.nodup_cons.2 ⟨fun h => ?_, ih hn' fun h => hname (.tail _ h)⟩
      obtain ⟨entry', hmem, he⟩ := List.mem_map.1 h
      rcases mem_insertBefore hmem with rfl | hmem
      · exact hname (by simp [he])
      · exact hnot (List.mem_map.2 ⟨entry', hmem, he⟩)

/-- A name is that of one handler. -/
theorem eq_of_names (hn : pipeline.names.Nodup) {entry entry' : JString × Handler} (h : entry ∈ pipeline)
    (h' : entry' ∈ pipeline) (hname : entry.1 = entry'.1) : entry = entry' :=
  List.inj_on_of_nodup_map hn h h' hname

end ChannelPipeline

/-- Where TinkerPop's pipeline has the handlers, whose names are distinct. -/
structure UpstreamPipeline.Ordered (upstream : UpstreamPipeline) : Prop where
  nodup : upstream.handlers.Nodup
  order : [REQUEST_TEXT_DECODER, upstream.binaryDecoder, upstream.authenticator, upstream.authorizer].Sublist
    upstream.handlers
  apart : upstream.compression ∉
    [REQUEST_TEXT_DECODER, upstream.binaryDecoder, upstream.authenticator, upstream.authorizer]

/-- The handlers that a message is changed or held up by, in the order in which it passes them. -/
def UpstreamPipeline.path (upstream : UpstreamPipeline) : ChannelPipeline :=
  [(IDENTITY_MIME_GUARD, .MimeGuard), (REQUEST_TEXT_DECODER, .upstream), (upstream.binaryDecoder, .upstream),
    (IDENTITY_AUTHENTICATION_GATE, .AuthenticationGate), (upstream.authenticator, .upstream),
    (upstream.authorizer, .RequestGate)]

/-- Whether a handler is one of them. -/
def UpstreamPipeline.acts (upstream : UpstreamPipeline) (entry : JString × Handler) : Bool :=
  entry.2 != .upstream || [REQUEST_TEXT_DECODER, upstream.binaryDecoder,
    upstream.authenticator].contains entry.1

section Configure

variable {upstream : UpstreamPipeline} {pipeline : ChannelPipeline}

theorem UpstreamPipeline.Ordered.distinct (h : upstream.Ordered) :
    [REQUEST_TEXT_DECODER, upstream.binaryDecoder, upstream.authenticator, upstream.authorizer].Nodup :=
  h.order.nodup h.nodup

/-- What is left of TinkerPop's own pipeline. -/
theorem removed_path (h : upstream.Ordered) {left : ChannelPipeline}
    (hleft : left = upstream.pipeline.eraseP fun entry => entry.1 == upstream.compression) :
    (([REQUEST_TEXT_DECODER, upstream.binaryDecoder, upstream.authenticator, upstream.authorizer].map
      fun name => (name, Handler.upstream)).Sublist left) ∧ left.names.Nodup ∧
        ∀ entry ∈ left, entry.2 = .upstream := by
  have herased : left.Sublist upstream.pipeline := by
    rw [hleft]
    exact List.eraseP_sublist
  refine ⟨?_, ?_, fun entry hmem => ?_⟩
  · have horder := (h.order.map fun name => (name, Handler.upstream)).eraseP (p := fun entry =>
      entry.1 == upstream.compression)
    rw [List.eraseP_of_forall_not] at horder
    · rw [hleft]
      exact horder
    · intro entry hmem
      obtain ⟨name, hname, rfl⟩ := List.mem_map.1 hmem
      have hne : name ≠ upstream.compression := fun he => h.apart (he ▸ hname)
      simpa using hne
  · have hnodup := h.nodup
    rw [← names_pipeline upstream] at hnodup
    exact (ChannelPipeline.names_sublist herased).nodup hnodup
  · obtain ⟨name, -, rfl⟩ := List.mem_map.1 (herased.subset hmem)
    rfl

/-- **What `configure` leaves**: the handlers in their order, each under a name of its own, and no
other that it has brought. -/
theorem configure_path (h : upstream.Ordered) (hc : configure upstream = some pipeline) :
    upstream.path.Sublist pipeline ∧ pipeline.names.Nodup ∧
      ∀ entry ∈ pipeline, entry.2 ≠ .upstream → entry ∈ upstream.path := by
  simp only [configure, ChannelPipeline.remove, ChannelPipeline.addBefore, ChannelPipeline.replace,
    Option.bind_eq_bind, Option.bind_eq_some_iff, Option.ite_none_right_eq_some, Option.some.injEq] at hc
  obtain ⟨left, ⟨-, hleft⟩, guarded, ⟨⟨-, hguard⟩, hguarded⟩, gated, ⟨⟨-, hgate⟩, hgated⟩, -, rfl⟩ := hc
  obtain ⟨horder, hnodup, hown⟩ := removed_path h hleft.symm
  have hbehind : ((IDENTITY_MIME_GUARD, Handler.MimeGuard) :: [REQUEST_TEXT_DECODER, upstream.binaryDecoder,
      upstream.authenticator, upstream.authorizer].map fun name =>
        (name, Handler.upstream)).Sublist guarded := by
    rw [← hguarded]
    exact ChannelPipeline.sublist_insertBefore_between [] hnodup horder
  have hnodup₁ : guarded.names.Nodup := by
    rw [← hguarded]
    exact ChannelPipeline.nodup_insertBefore hnodup hguard
  have hbetween : [(IDENTITY_MIME_GUARD, Handler.MimeGuard), (REQUEST_TEXT_DECODER, .upstream),
      (upstream.binaryDecoder, .upstream), (IDENTITY_AUTHENTICATION_GATE, .AuthenticationGate),
      (upstream.authenticator, .upstream), (upstream.authorizer, .upstream)].Sublist gated := by
    rw [← hgated]
    exact ChannelPipeline.sublist_insertBefore_between
      [(IDENTITY_MIME_GUARD, .MimeGuard), (REQUEST_TEXT_DECODER, .upstream),
        (upstream.binaryDecoder, .upstream)]
      hnodup₁ hbehind
  have hnodup₂ : gated.names.Nodup := by
    rw [← hgated]
    exact ChannelPipeline.nodup_insertBefore hnodup₁ hgate
  refine ⟨?_, ?_, fun entry hmem hentry => ?_⟩
  · -- the last of them is the one that is replaced
    have hreplaced := hbetween.map fun entry =>
      if entry.1 = upstream.authorizer then (upstream.authorizer, Handler.RequestGate) else entry
    have hdistinct := (ChannelPipeline.names_sublist hbetween).nodup hnodup₂
    simp only [ChannelPipeline.names, List.map_cons, List.map_nil, List.nodup_cons, List.mem_cons,
      List.not_mem_nil, or_false, not_or,
      not_false_eq_true, List.nodup_nil, and_true] at hdistinct
    obtain ⟨⟨-, -, -, -, hne₁⟩, ⟨-, -, -, hne₂⟩, ⟨-, -, hne₃⟩, ⟨-, hne₄⟩, hne₅⟩ := hdistinct
    rw [UpstreamPipeline.path]
    simpa only [List.map_cons, List.map_nil, hne₁, hne₂, hne₃, hne₄, hne₅, if_false, if_true] using hreplaced
  · rw [ChannelPipeline.names_replace]
    exact hnodup₂
  · obtain ⟨entry', hmem', rfl⟩ := List.mem_map.1 hmem
    split
    · simp [UpstreamPipeline.path]
    · next hne =>
      rw [if_neg hne] at hentry
      rw [← hgated] at hmem'
      rcases ChannelPipeline.mem_insertBefore hmem' with rfl | hmem'
      · simp [UpstreamPipeline.path]
      · rw [← hguarded] at hmem'
        rcases ChannelPipeline.mem_insertBefore hmem' with rfl | hmem'
        · simp [UpstreamPipeline.path]
        · exact absurd (hown entry' hmem') hentry

/-- The handlers that act are those of the path. -/
theorem configure_filter (h : upstream.Ordered) (hc : configure upstream = some pipeline) :
    pipeline.filter upstream.acts = upstream.path := by
  obtain ⟨hpath, hnodup, hown⟩ := configure_path h hc
  have hacts : ∀ entry ∈ upstream.path, upstream.acts entry = true := by
    simp [UpstreamPipeline.path, UpstreamPipeline.acts]
  have hmem : ∀ entry ∈ pipeline, upstream.acts entry = true → entry ∈ upstream.path := by
    intro entry hmem hentry
    cases hhandler : entry.2 with
    | MimeGuard | AuthenticationGate | RequestGate => exact hown entry hmem (by simp [hhandler])
    | upstream =>
      simp only [UpstreamPipeline.acts, hhandler, bne_self_eq_false, Bool.false_or,
        List.contains_iff_mem] at hentry
      have hname : (entry.1, Handler.upstream) ∈ upstream.path := by
        simp only [List.mem_cons, List.not_mem_nil, or_false] at hentry
        rcases hentry with he | he | he <;> simp [he, UpstreamPipeline.path]
      have hsame : entry = (entry.1, Handler.upstream) :=
        ChannelPipeline.eq_of_names hnodup hmem (hpath.subset hname) rfl
      rw [hsame]
      exact hname
  have hsublist : upstream.path.Sublist (pipeline.filter upstream.acts) := by
    have hfilter := hpath.filter upstream.acts
    rwa [List.filter_eq_self.2 hacts] at hfilter
  refine (hsublist.eq_of_length_le ?_).symm
  have hfiltered : (pipeline.filter upstream.acts).Nodup := (List.Nodup.of_map _ hnodup).filter _
  refine (List.subperm_of_subset hfiltered fun entry hentry => ?_).length_le
  obtain ⟨hin, hact⟩ := List.mem_filter.1 hentry
  exact hmem entry hin hact

end Configure

/-! ## The decoders -/

/-- What is used of Jackson, of the mapper that a serializer delegates to, and
of TinkerPop's decoders. -/
structure Decoders where
  jackson : Jackson
  /-- The JSON that a text is, if it is any. -/
  json : JString → Option JsonText
  /-- `delegate.getMapper().readValue(input, RequestMessage.class)`. -/
  readValue : JString → Option RequestMessage
  binary : BinaryDecoder
  /-- `frame.text()`. -/
  text : List UInt8 → JString
  /-- What a serializer of another class makes of what it is given. -/
  other : Instance → List UInt8 → Option RequestMessage
  /-- The serializer for a name that none is registered under. -/
  fallback : Instance
  /-- `RequestMessage.INVALID`, for what cannot be deserialized. -/
  invalid : RequestMessage

/-- A message on its way: as it has come in, or as a handler has made it. -/
inductive Traffic
  | frame (msg : FrameMessage)
  | inbound (msg : Inbound)

/-- A message to those handlers that know requests only. -/
def Traffic.object : Traffic → Inbound
  | .frame (.frame _) => .other 0
  | .frame (.other identity) => .other identity
  | .inbound msg => msg

/-- What is documented of TinkerPop's parsing. -/
structure Decoders.Documented (decoders : Decoders) : Prop where
  length : ∀ input text, decoders.json input = some text → text.length = input.length
  invalid : decoders.invalid.op = none

namespace IdentityGraphSONSerializer

/-- `deserializeRequest(String)`. -/
def deserializeRequest (decoders : Decoders) (input : JString) : Option RequestMessage :=
  match decoders.json input with
  | some text => if structural decoders.jackson text then decoders.readValue input else none
  | none => none

/-- `deserializeRequest(ByteBuf)`, of the readable bytes. -/
def deserializeBytes (decoders : Decoders) (input : List UInt8) : Option RequestMessage :=
  if input.length > 65536 then none else (decodeUtf8 input).bind (deserializeRequest decoders)

end IdentityGraphSONSerializer

namespace Decoders

/-- What is left of a binary frame behind the MIME name. -/
def body (content : List UInt8) : List UInt8 := content.drop ((content.headD 0).toNat + 1)

def deserialize (decoders : Decoders) (serializer : Instance) (type : FrameType) (content : List UInt8) :
    Option RequestMessage :=
  match serializer.javaClass, type with
  | .IdentityGraphSONSerializer, .text =>
    IdentityGraphSONSerializer.deserializeRequest decoders (decoders.text content)
  | .IdentityGraphSONSerializer, _ => IdentityGraphSONSerializer.deserializeBytes decoders content
  | _, _ => decoders.other serializer content

/-- What the text decoder makes of a message; none where it passes it on. -/
def textDecode (decoders : Decoders) (channelizer : Channelizer) : Traffic → Option RequestMessage
  | .frame (.frame frame) =>
    if frame.type = .text then
      let serializer := (channelizer.get (utf16 "application/json")).getD decoders.fallback
      some ((decoders.deserialize serializer .text frame.content.readable).getD decoders.invalid)
    else none
  | _ => none

/-- What the binary decoder makes of a message; none where it passes it on. -/
def binaryDecode (decoders : Decoders) (channelizer : Channelizer) : Traffic → Option RequestMessage
  | .frame (.frame frame) =>
    if frame.type = .binary then
      let content := frame.content.readable
      let serializer := decoders.binary.select channelizer.get decoders.fallback content
      let request := serializer.bind fun serializer => decoders.deserialize serializer .binary (body content)
      some (request.getD decoders.invalid)
    else none
  | _ => none

end Decoders

/-! ## Authentication -/

namespace SaslAuthenticationHandler

/-- What the SASL handler does with a message. -/
structure Reaction (State : Type) where
  state : State
  /-- The user that it has authenticated. -/
  user : Option AuthenticatedUser
  forwarded : List RequestMessage
  /-- Whether it closes the channel. -/
  closes : Bool

end SaslAuthenticationHandler

/-- TinkerPop's `SaslAuthenticationHandler`, as long as it is in the pipeline. -/
structure SaslAuthenticationHandler where
  State : Type
  initial : State
  /-- The requests that it holds back. -/
  retained : State → List RequestMessage
  channelRead : State → Inbound → SaslAuthenticationHandler.Reaction State

/-- What it forwards and still holds it has held before or has just been given,
and it forwards nothing until it has authenticated a user. -/
structure SaslAuthenticationHandler.Documented (sasl : SaslAuthenticationHandler) : Prop where
  initial : sasl.retained sasl.initial = []
  waits : ∀ state msg, (sasl.channelRead state msg).user = none → (sasl.channelRead state msg).forwarded = []
  request : ∀ state request, ((sasl.channelRead state (.request request)).forwarded ++
    sasl.retained (sasl.channelRead state (.request request)).state).Sublist (sasl.retained state ++ [request])
  other : ∀ state identity, ((sasl.channelRead state (.other identity)).forwarded ++
    sasl.retained (sasl.channelRead state (.other identity)).state).Sublist (sasl.retained state)

/-! ## The channel -/

/-- The server a channel belongs to. -/
structure IdentityServer where
  upstream : UpstreamPipeline
  ascii : UsAscii
  tp : TinkerPop
  channelizer : Channelizer
  decoders : Decoders
  sasl : SaslAuthenticationHandler

/-- What is assumed of the parts that are not the repository's. -/
structure IdentityServer.Documented (server : IdentityServer) : Prop where
  upstream : server.upstream.Ordered
  init : server.channelizer.init = true
  tp : server.tp.Documented
  decoders : server.decoders.Documented
  sasl : server.sasl.Documented

/-- A channel of the server. -/
structure ServedChannel (server : IdentityServer) where
  channel : GatedChannel
  sasl : server.sasl.State

/-- What is remembered of a channel: the requests that are decoded, and what
the request gate makes of each message that comes to it. -/
inductive ServedEffect
  | decoded (request : RequestMessage)
  | asked (msg : Inbound) (result : Except Thrown (List ChannelAction))

namespace ServedChannel

variable {server : IdentityServer}

/-- A channel that has just been opened. -/
def opened : ServedChannel server := ⟨.opened, server.sasl.initial⟩

/-- The channel is closed. -/
def close (s : ServedChannel server) : ServedChannel server :=
  { s with channel := { s.channel with isOpen := false } }

/-- The channel is closed, or not. -/
def closeIf (s : ServedChannel server) (closes : Bool) : ServedChannel server := if closes then s.close else s

/-! ### The handlers -/

/-- What a handler makes of a message: the channel behind it, what is remembered,
and what it fires, message by message. -/
structure Handled (server : IdentityServer) where
  channel : ServedChannel server
  effects : List ServedEffect
  fired : List Traffic

/-- A handler hands a message on as it is. -/
def passOn (s : ServedChannel server) (msg : Traffic) : Handled server := ⟨s, [], [msg]⟩

/-- The guard closes the channel. -/
def closes : GuardEffect → Bool
  | .close => true
  | _ => false

/-- What the guard hands on. -/
def guarded : GuardEffect → Option Traffic
  | .fireChannelRead msg => some (.frame msg)
  | _ => none

/-- The guard, on a frame; it lets everything else pass. -/
def mimeGuard (s : ServedChannel server) : Traffic → Handled server
  | .frame msg =>
    let effects := (MimeGuard.channelRead server.ascii msg).result.getD []
    ⟨s.closeIf (effects.any closes), [], effects.filterMap guarded⟩
  | .inbound msg => s.passOn (.inbound msg)

/-- A decoder that has, or has not, made a request of a message. -/
def decoder (s : ServedChannel server) (msg : Traffic) : Option RequestMessage → Handled server
  | some request => ⟨s, [.decoded request], [.inbound (.request request)]⟩
  | none => s.passOn msg

/-- What the gate hands on. -/
def gated : GateEffect → Option Traffic
  | .fireChannelRead msg => some (.inbound msg)
  | _ => none

/-- The authentication gate, as long as it is in the pipeline. -/
def authenticationGate (s : ServedChannel server) (msg : Traffic) : Handled server :=
  match s.channel.step (.read msg.object) with
  | some (channel, effects) => ⟨{ s with channel }, [], effects.filterMap gated⟩
  | none => ⟨s, [], []⟩

/-- The SASL handler, as long as it is in the pipeline. -/
def authenticator (s : ServedChannel server) (msg : Traffic) : Handled server :=
  if s.channel.authenticated then s.passOn msg
  else
    let reaction := server.sasl.channelRead s.sasl msg.object
    let user := reaction.user.or s.channel.user
    let s : ServedChannel server := ⟨{ s.channel with user }, reaction.state⟩
    ⟨s.closeIf reaction.closes, [], reaction.forwarded.map fun request => .inbound (.request request)⟩

/-- A message as the authorization handler takes it. -/
def message : Inbound → Message
  | .request request => .request request
  | .other _ => .other

/-- The authorization handler closes the channel. -/
def isClose : ChannelAction → Bool
  | .close => true
  | _ => false

/-- The request gate. What it fires comes to the executor of operations, and is
remembered with what it has been asked. -/
def requestGate (s : ServedChannel server) (msg : Traffic) : Handled server :=
  let result := RequestGate.channelRead server.tp s.channel.user (message msg.object)
  let closes := match result with
    | .ok actions => actions.any isClose
    | .error _ => false
  ⟨s.closeIf closes, [.asked msg.object result], []⟩

/-- The handler of an entry, on a message. -/
def handle (entry : JString × Handler) (s : ServedChannel server) (msg : Traffic) : Handled server :=
  match entry.2 with
  | .MimeGuard => s.mimeGuard msg
  | .AuthenticationGate => s.authenticationGate msg
  | .RequestGate => s.requestGate msg
  | .upstream =>
    if entry.1 = REQUEST_TEXT_DECODER then s.decoder msg (server.decoders.textDecode server.channelizer msg)
    else if entry.1 = server.upstream.binaryDecoder then
      s.decoder msg (server.decoders.binaryDecode server.channelizer msg)
    else if entry.1 = server.upstream.authenticator then s.authenticator msg
    else s.passOn msg

/-! ### The pipeline -/

/-- Of a list of things, one after the other. -/
def each {α : Type} (f : ServedChannel server → α → ServedChannel server × List ServedEffect) :
    ServedChannel server → List α → ServedChannel server × List ServedEffect
  | s, [] => (s, [])
  | s, a :: rest =>
    let (s, effects) := f s a
    let (s, effects') := each f s rest
    (s, effects ++ effects')

/-- A message at the first of these handlers, and what it fires at those behind it. -/
def pass : ChannelPipeline → ServedChannel server → Traffic → ServedChannel server × List ServedEffect
  | [], s, _ => (s, [])
  | entry :: rest, s, msg =>
    let handled := s.handle entry msg
    let (s, effects) := each (fun s msg => pass rest s msg) handled.channel handled.fired
    (s, handled.effects ++ effects)

/-- What happens to a channel. -/
inductive Event
  | frame (msg : FrameMessage)
  | deadline
  | close
  | unregister

/-- A channel with a pipeline. -/
def step (pipeline : ChannelPipeline) (s : ServedChannel server) :
    Event → Option (ServedChannel server × List ServedEffect)
  | .frame msg => if s.channel.isOpen then some (pass pipeline s (.frame msg)) else none
  | .deadline => (s.channel.step .deadline).map fun next => ({ s with channel := next.1 }, [])
  | .close => (s.channel.step .close).map fun next => ({ s with channel := next.1 }, [])
  | .unregister => (s.channel.step .unregister).map fun next => ({ s with channel := next.1 }, [])

end ServedChannel

end CartyxInfra.Gremlin
