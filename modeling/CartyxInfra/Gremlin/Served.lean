/-
What the handlers of `IdentityChannelizer` come to together, over every run of
a channel: in which order requests come to the request gate and who for
(`served`), and what comes to the executor of operations (`executed`).

The invariant follows a request through the pipeline: what the gate has been
asked, then what is in hand, then what waits for an authentication is in the
order in which it was decoded. A run of the channel is one of its
authentication gate's (`Bounded`), which bounds what can wait.
-/
import CartyxInfra.Gremlin.Pipeline

namespace CartyxInfra.Gremlin

open JString

/-! ## What is decoded -/

/-- A request whose text has been found to be short, and its tree shallow,
small and of listed types, before the typed deserializer read it. -/
structure Screened (decoders : Decoders) (request : RequestMessage) : Prop where
  screened : ∃ input text tree, decoders.json input = some text ∧ decoders.jackson.readTree text = .ok tree ∧
    input.length ≤ 65536 ∧ tree.height ≤ 32 ∧ tree.nodes ≤ 2048 ∧
      tree.Every (fun node => wellTyped node = true) ∧ decoders.readValue input = some request

theorem structural_ok {jackson : Jackson} {text : JsonText} (h : structural jackson text = true) :
    text.length ≤ 65536 ∧ ∃ tree, jackson.readTree text = .ok tree ∧ tree.height ≤ 32 ∧ tree.nodes ≤ 2048 ∧
      tree.Every fun node => wellTyped node = true := by
  unfold structural at h
  split at h
  · cases h
  · next hlength =>
    split at h
    · cases h
    · next tree htree =>
      obtain ⟨n, hn⟩ := Option.isSome_iff_exists.1 h
      obtain ⟨hheight, hnodes, htyped, -⟩ := check_eq_some.1 hn
      exact ⟨by omega, tree, htree, by omega, by omega, htyped⟩

namespace IdentityGraphSONSerializer

variable {decoders : Decoders} {request : RequestMessage}

theorem deserializeRequest_screened (hd : decoders.Documented) {input : JString}
    (h : deserializeRequest decoders input = some request) : Screened decoders request := by
  unfold deserializeRequest at h
  split at h
  · next text htext =>
    rw [Option.ite_none_right_eq_some] at h
    obtain ⟨hs, hread⟩ := h
    obtain ⟨hlength, tree, htree, hheight, hnodes, htyped⟩ := structural_ok hs
    rw [hd.length input text htext] at hlength
    exact ⟨input, text, tree, htext, htree, hlength, hheight, hnodes, htyped, hread⟩
  · cases h

theorem deserializeBytes_screened (hd : decoders.Documented) {input : List UInt8}
    (h : deserializeBytes decoders input = some request) : Screened decoders request := by
  simp only [deserializeBytes, Option.ite_none_left_eq_some, Option.bind_eq_some_iff] at h
  obtain ⟨-, text, -, h⟩ := h
  exact deserializeRequest_screened hd h

end IdentityGraphSONSerializer

/-- The serializer for text frames. -/
theorem Channelizer.init_json {channelizer : Channelizer} (h : channelizer.init = true) : ∃ serializer,
    channelizer.get (utf16 "application/json") = some serializer ∧
      serializer.javaClass = .IdentityGraphSONSerializer := by
  simp only [init, Bool.not_eq_true', decide_eq_false_iff_not, not_or, not_not] at h
  obtain ⟨-, -, -, -, -, -, -, -, -, -, hregistered, -⟩ := h
  simpa only [instanceOf, Option.map_eq_some_iff] using hregistered

/-- What is decoded of a message that the MIME guard lets through. -/
theorem decode_screened {decoders : Decoders} {channelizer : Channelizer} (hd : decoders.Documented)
    (hinit : channelizer.init = true) {msg : FrameMessage}
    (hp : ∀ frame, msg = .frame frame → MimeGuard.Passes frame) {request : RequestMessage}
    (h : decoders.textDecode channelizer (.frame msg) = some request ∨
      decoders.binaryDecode channelizer (.frame msg) = some request) :
    request = decoders.invalid ∨ Screened decoders request := by
  have hdefault {found : Option RequestMessage}
      (hs : ∀ request, found = some request → Screened decoders request)
      (hr : found.getD decoders.invalid = request) :
      request = decoders.invalid ∨ Screened decoders request := by
    cases found with
    | none => exact .inl hr.symm
    | some found => exact .inr (hs request (by simpa using hr))
  cases msg with
  | other identity => rcases h with h | h <;> cases h
  | frame frame =>
    rcases h with h | h
    · obtain ⟨serializer, hget, hclass⟩ := channelizer.init_json hinit
      simp only [Decoders.textDecode, hget, Option.getD_some, Option.ite_none_right_eq_some,
        Option.some.injEq] at h
      refine hdefault (fun request hr => ?_) h.2
      simp only [Decoders.deserialize, hclass] at hr
      exact IdentityGraphSONSerializer.deserializeRequest_screened hd hr
    · simp only [Decoders.binaryDecode, Option.ite_none_right_eq_some, Option.some.injEq] at h
      obtain ⟨hbinary, h⟩ := h
      obtain ⟨serializer, hget, hclass⟩ := channelizer.init_registers hinit
      have hselect : decoders.binary.select channelizer.get decoders.fallback frame.content.readable =
          some serializer := decoders.binary.select_named ((hp frame rfl).named hbinary) hget
      simp only [hselect, Option.bind_some] at h
      refine hdefault (fun request hr => ?_) h
      simp only [Decoders.deserialize, hclass] at hr
      exact IdentityGraphSONSerializer.deserializeBytes_screened hd hr

/-! ## What the request gate lets through -/

theorem RequestGate.asked_op {tp : TinkerPop} {user : Option AuthenticatedUser} {request : RequestMessage}
    {actions : List ChannelAction} {out : Message}
    (h : RequestGate.channelRead tp user (.request request) = .ok actions)
    (hf : .fireChannelRead out ∈ actions) : request.op ≠ none := by
  intro hop
  simp only [RequestGate.channelRead] at h
  split at h
  · simp only [Except.ok.injEq] at h
    subst h
    simp [WebSocketAuthorizationHandler.channelRead, WebSocketAuthorizationHandler.dispatch, hop,
      WebSocketAuthorizationHandler.interruptEvaluation] at hf
  · simp only [Except.ok.injEq] at h
    subst h
    simp at hf
  · cases h

/-- What is forwarded for the application is what it asked, with its code admitted. -/
structure Applied (tp : TinkerPop) (user : AuthenticatedUser) (request : RequestMessage) (out : Message) :
    Prop where
  user : ApplicationUser (some user)
  envelope : Envelope request
  code : ∃ code, request.arg (utf16 "gremlin") = some (.bytecode code) ∧ Admitted code ∧
    out = .request (tp.withCode request (.bytecode code) gAliases)

theorem RequestGate.applied {tp : TinkerPop} (htp : tp.Documented) {user : AuthenticatedUser}
    {request : RequestMessage} {actions : List ChannelAction} {out : Message} (hu : ¬ OperatorUser (some user))
    (h : RequestGate.channelRead tp (some user) (.request request) = .ok actions)
    (hf : .fireChannelRead out ∈ actions) : Applied tp user request out := by
  have hu' : admin (some user) = false := by simpa [← admin_iff] using hu
  simp only [RequestGate.channelRead] at h
  split at h
  · next _ hr =>
    simp only [Except.ok.injEq] at h
    subst h
    obtain ⟨happ, henv⟩ := authorizeRequest_ok hu' hr
    exact ⟨happ, henv, WebSocketAuthorizationHandler.forwarded_bytecode htp henv.op hu' hf⟩
  · simp only [Except.ok.injEq] at h
    subst h
    simp at hf
  · cases h

/-! ## Counting what waits -/

/-- The gate takes the request for one of this kind. -/
def ofKind (kind : Kind) (request : RequestMessage) : Bool := (Inbound.request request).kind == some kind

/-- A run of the channel, in which requests have been let through before the
authentication, of each kind as many as are held at least. -/
def Bounded (channel : GatedChannel) (held : List RequestMessage) : Prop :=
  ∃ history, Run GatedChannel.step .opened history channel ∧
    ∀ kind, held.countP (ofKind kind) ≤ GatedChannel.passed kind history

/-- The requests of a message. -/
def Inbound.requests : Inbound → List RequestMessage
  | .request message => [message]
  | .other _ => []

namespace Bounded

variable {channel channel' : GatedChannel} {held held' : List RequestMessage}

theorem mono (h : Bounded channel held) (hs : held'.Sublist held) : Bounded channel held' := by
  obtain ⟨history, hrun, hheld⟩ := h
  exact ⟨history, hrun, fun kind => (hs.countP_le ..).trans (hheld kind)⟩

theorem limit (h : Bounded channel held) (kind : Kind) : held.countP (ofKind kind) ≤ kind.limit := by
  obtain ⟨history, hrun, hheld⟩ := h
  exact (hheld kind).trans ((GatedChannel.Counting.run hrun).within kind)

theorem gate (h : Bounded channel held) (hopen : channel.isOpen = true) (hgated : channel.gated = false) :
    channel.authenticated = true := by
  obtain ⟨history, hrun, -⟩ := h
  exact (GatedChannel.Counting.run hrun).gate hgated hopen

/-- An event at which nothing more is held. -/
theorem step (h : Bounded channel held) {event : GatedChannel.Event} {effects : List GateEffect}
    (hs : channel.step event = some (channel', effects)) : Bounded channel' held := by
  obtain ⟨history, hrun, hheld⟩ := h
  refine ⟨_, hrun.step hs, fun kind => ?_⟩
  rw [GatedChannel.passed_append]
  exact (hheld kind).trans (Nat.le_add_right ..)

/-- A message that the gate lets through before the authentication. -/
theorem read (h : Bounded channel held) (huser : channel.authenticated = false) {msg : Inbound}
    (hs : channel.step (.read msg) = some (channel', [.fireChannelRead msg])) :
    Bounded channel' (held ++ msg.requests) := by
  obtain ⟨history, hrun, hheld⟩ := h
  refine ⟨_, hrun.step hs, fun kind => ?_⟩
  rw [GatedChannel.passed_append, List.countP_append]
  refine Nat.add_le_add (hheld kind) ?_
  simp only [GatedChannel.early, huser, Bool.false_eq_true, if_false]
  cases msg with
  | request request =>
    simp only [Inbound.requests, List.countP_singleton, ofKind, GatedChannel.forwards]
    exact Nat.le_refl _
  | other identity => simp [Inbound.requests]

end Bounded

/-! ## Along the pipeline -/

namespace ServedChannel

variable {server : IdentityServer} {s s' : ServedChannel server} {E : List ServedEffect}
  {queue : List RequestMessage}

/-- The requests that are decoded. -/
def decoded (E : List ServedEffect) : List RequestMessage :=
  E.flatMap fun
    | .decoded request => [request]
    | .asked .. => []

/-- The requests that come to the request gate. -/
def asked (E : List ServedEffect) : List RequestMessage :=
  E.flatMap fun
    | .decoded _ => []
    | .asked msg _ => msg.requests

@[simp] theorem decoded_append (E F : List ServedEffect) : decoded (E ++ F) = decoded E ++ decoded F := by
  simp [decoded]

/-- What waits for an authentication. -/
def waiting (s : ServedChannel server) : List RequestMessage :=
  if s.channel.authenticated then [] else server.sasl.retained s.sasl

/-- With these requests still to come to the gate, in this order. -/
structure Ordered (E : List ServedEffect) (s : ServedChannel server) (queue : List RequestMessage) : Prop where
  order : (asked E ++ queue).Sublist (decoded E)
  user : ∀ msg result, .asked msg result ∈ E → ∃ user, s.channel.user = some user ∧
    result = RequestGate.channelRead server.tp (some user) (message msg)
  screened : ∀ request ∈ decoded E, request = server.decoders.invalid ∨ Screened server.decoders request

/-- What holds of a channel between two events. -/
structure Inv (E : List ServedEffect) (s : ServedChannel server) : Prop where
  ordered : Ordered E s s.waiting
  bounded : Bounded s.channel (server.sasl.retained s.sasl)

theorem Ordered.mono {queue' : List RequestMessage} (h : Ordered E s queue) (hq : queue'.Sublist queue)
    (hu : s'.channel.user = s.channel.user) : Ordered E s' queue' where
  order := (hq.append_left _).trans h.order
  user := hu ▸ h.user
  screened := h.screened

theorem waiting_user (hu : s'.channel.user = s.channel.user) (hs : s'.sasl = s.sasl) :
    s'.waiting = s.waiting := by
  have hauth : s'.channel.authenticated = s.channel.authenticated := congrArg Option.isSome hu
  simp only [waiting, hauth, hs]

theorem step_close (channel : GatedChannel) :
    channel.step .close = some ({ channel with isOpen := false }, []) := rfl

theorem step_authenticate (channel : GatedChannel) (user : AuthenticatedUser) :
    channel.step (.authenticate user) = some ({ channel with user := some user }, []) := rfl

theorem Inv.close (h : Inv E s) : Inv E s.close where
  ordered := h.ordered.mono (.refl _) rfl
  bounded := h.bounded.step (step_close _)

/-! ### From the request gate on -/

theorem each_singleton {α : Type} (f : ServedChannel server → α → ServedChannel server × List ServedEffect)
    (s : ServedChannel server) (a : α) : each f s [a] = f s a := by
  simp [each]

/-- The request gate and what is behind it. -/
def gateway (server : IdentityServer) : ChannelPipeline := [(server.upstream.authorizer, .RequestGate)]

theorem gateway_eq (s : ServedChannel server) (msg : Traffic) : ∃ result,
    result = RequestGate.channelRead server.tp s.channel.user (message msg.object) ∧
      (pass (gateway server) s msg).2 = [.asked msg.object result] ∧
        ((pass (gateway server) s msg).1 = s ∨ (pass (gateway server) s msg).1 = s.close) := by
  refine ⟨_, rfl, rfl, ?_⟩
  exact (ite_eq_or_eq ..).symm

/-- The request gate is asked for the next in the queue. -/
theorem Ordered.gateway (msg : Traffic) (h : Ordered E s (msg.object.requests ++ queue))
    (hu : s.channel.authenticated = true) :
    Ordered (E ++ (pass (gateway server) s msg).2) (pass (ServedChannel.gateway server) s msg).1 queue := by
  obtain ⟨user, huser⟩ := Option.isSome_iff_exists.1 hu
  obtain ⟨result, hresult, heffects, hs⟩ := s.gateway_eq msg
  have huser' : (pass (ServedChannel.gateway server) s msg).1.channel.user = some user := by
    rcases hs with hs | hs <;> rw [hs] <;> exact huser
  rw [heffects]
  refine ⟨?_, fun msg' result' hmem => ?_, ?_⟩
  · have horder := h.order
    rw [← List.append_assoc] at horder
    simpa [asked, decoded] using horder
  · rcases List.mem_append.1 hmem with hmem | hmem
    · obtain ⟨user', hu', hr⟩ := h.user msg' result' hmem
      rw [huser, Option.some.injEq] at hu'
      subst hu'
      exact ⟨user, huser', hr⟩
    · simp only [List.mem_singleton, ServedEffect.asked.injEq] at hmem
      obtain ⟨rfl, rfl⟩ := hmem
      exact ⟨user, huser', by rw [hresult, huser]⟩
  · simpa [decoded] using h.screened

/-- A step of the request gate's on a channel with a user. -/
structure Passed (s s' : ServedChannel server) : Prop where
  user : s'.channel.user = s.channel.user
  sasl : s'.sasl = s.sasl
  closed : ∀ held, Bounded s.channel held → Bounded s'.channel held

theorem gateway_passed (s : ServedChannel server) (msg : Traffic) :
    Passed s (pass (gateway server) s msg).1 := by
  obtain ⟨_, -, -, hs | hs⟩ := s.gateway_eq msg
  · rw [hs]
    exact ⟨rfl, rfl, fun _ h => h⟩
  · rw [hs]
    exact ⟨rfl, rfl, fun _ h => h.step (step_close _)⟩

/-- What the SASL handler fires, one by one at the request gate. -/
def ask (s : ServedChannel server) (requests : List RequestMessage) :
    ServedChannel server × List ServedEffect :=
  each (fun s msg => pass (gateway server) s msg) s (requests.map fun request => .inbound (.request request))

theorem ask_nil (s : ServedChannel server) : s.ask [] = (s, []) := rfl

/-- All that the SASL handler forwards comes to the gate in its order. -/
theorem Ordered.ask : ∀ {requests : List RequestMessage} {E : List ServedEffect}
    {s : ServedChannel server}, Ordered E s (requests ++ queue) → s.channel.authenticated = true →
      Ordered (E ++ (s.ask requests).2) (s.ask requests).1 queue ∧ Passed s (s.ask requests).1
  | [], E, s, h, _ => ⟨by simpa [ask_nil] using h, rfl, rfl, fun _ h => h⟩
  | request :: rest, E, s, h, hu => by
    have hpassed := s.gateway_passed (.inbound (.request request))
    have hnext := Ordered.gateway (.inbound (.request request)) h hu
    have hu' : (pass (ServedChannel.gateway server) s (.inbound (.request request))).1.channel.authenticated =
        true := by
      rw [GatedChannel.authenticated, hpassed.user]
      exact hu
    obtain ⟨hrest, hpassed'⟩ := hnext.ask hu'
    rw [List.append_assoc] at hrest
    exact ⟨hrest, hpassed'.user.trans hpassed.user, hpassed'.sasl.trans hpassed.sasl,
      fun held hb => hpassed'.closed held (hpassed.closed held hb)⟩

/-- With all that was held back asked, there is nothing left to wait. -/
theorem Ordered.asked {requests : List RequestMessage} (h : Ordered E s requests)
    (hu : s.channel.authenticated = true) (hb : Bounded s.channel (server.sasl.retained s.sasl)) :
    Inv (E ++ (s.ask requests).2) (s.ask requests).1 := by
  rw [← List.append_nil requests] at h
  obtain ⟨hordered, hpassed⟩ := h.ask hu
  have hu' : (s.ask requests).1.channel.authenticated = true := by
    rw [GatedChannel.authenticated, hpassed.user]
    exact hu
  refine ⟨by simpa [waiting, hu'] using hordered, ?_⟩
  rw [hpassed.sasl]
  exact hpassed.closed _ hb

/-! ### From the SASL handler on -/

/-- The SASL handler and what is behind it. -/
def authenticating (server : IdentityServer) : ChannelPipeline :=
  (server.upstream.authenticator, .upstream) :: gateway server

/-- The SASL handler's own name is none of a decoder. -/
theorem handle_authenticator (hd : server.upstream.Ordered) (s : ServedChannel server) (msg : Traffic) :
    s.handle (server.upstream.authenticator, .upstream) msg = s.authenticator msg := by
  have hdistinct := hd.distinct
  simp only [List.nodup_cons, List.mem_cons, List.not_mem_nil, or_false, not_or] at hdistinct
  obtain ⟨⟨-, htext, -⟩, ⟨hbinary, -⟩, -⟩ := hdistinct
  simp only [handle, if_neg (Ne.symm htext), if_neg (Ne.symm hbinary), if_true]

/-- Where the SASL handler is gone, -/
theorem authenticating_bypassed (hd : server.upstream.Ordered) (hu : s.channel.authenticated = true)
    (msg : Traffic) :
    pass (authenticating server) s msg = pass (gateway server) s msg := by
  rw [authenticating, pass, handle_authenticator hd, authenticator, if_pos hu]
  simp only [passOn, each_singleton, List.nil_append]

/-- and where it is not. -/
theorem authenticating_pending (hd : server.upstream.Ordered) (hu : s.channel.authenticated = false)
    (msg : Traffic) :
    pass (authenticating server) s msg =
      (closeIf (⟨{ s.channel with user := (server.sasl.channelRead s.sasl msg.object).user.or s.channel.user },
        (server.sasl.channelRead s.sasl msg.object).state⟩ : ServedChannel server)
          (server.sasl.channelRead s.sasl msg.object).closes).ask
            (server.sasl.channelRead s.sasl msg.object).forwarded := by
  rw [authenticating, pass, handle_authenticator hd, authenticator, if_neg (by simp [hu])]
  rfl

/-- What the SASL handler has in hand is forwarded, held or dropped. -/
theorem sasl_sublist (hd : server.sasl.Documented) (state : server.sasl.State) (msg : Inbound) :
    ((server.sasl.channelRead state msg).forwarded ++
      server.sasl.retained (server.sasl.channelRead state msg).state).Sublist
        (server.sasl.retained state ++ msg.requests) := by
  cases msg with
  | request request => exact hd.request state request
  | other identity => simpa [Inbound.requests] using hd.other state identity

/-- A message that the authentication gate lets through. -/
theorem Ordered.authenticating (hd : server.Documented) (msg : Traffic)
    (h : Ordered E s (s.waiting ++ msg.object.requests))
    (hb : Bounded s.channel (if s.channel.authenticated then server.sasl.retained s.sasl
      else server.sasl.retained s.sasl ++ msg.object.requests)) :
    Inv (E ++ (pass (ServedChannel.authenticating server) s msg).2)
      (pass (ServedChannel.authenticating server) s msg).1 := by
  cases hu : s.channel.authenticated with
  | true =>
    have hpassed := s.gateway_passed msg
    have hu' : (pass (ServedChannel.gateway server) s msg).1.channel.authenticated = true := by
      rw [GatedChannel.authenticated, hpassed.user]
      exact hu
    simp only [waiting, hu, if_true, List.nil_append] at h hb
    rw [authenticating_bypassed hd.upstream hu]
    rw [← List.append_nil msg.object.requests] at h
    refine ⟨?_, ?_⟩
    · simpa [waiting, hu'] using h.gateway msg hu
    · rw [hpassed.sasl]
      exact hpassed.closed _ hb
  | false =>
    have hnone : s.channel.user = none := by simpa [GatedChannel.authenticated] using hu
    have hsublist := sasl_sublist hd.sasl s.sasl msg.object
    have hforwarded := (List.sublist_append_left ..).trans hsublist
    have hretained := (List.sublist_append_right ..).trans hsublist
    simp only [waiting, hu, Bool.false_eq_true, if_false] at h hb
    rw [authenticating_pending hd.upstream hu, hnone]
    cases huser : (server.sasl.channelRead s.sasl msg.object).user with
    | none =>
      have hs : Inv E (⟨s.channel, (server.sasl.channelRead s.sasl msg.object).state⟩ : ServedChannel server) := by
        refine ⟨h.mono ?_ rfl, hb.mono hretained⟩
        simpa [waiting, hu] using hretained
      have hsame : ({ s.channel with user := none } : GatedChannel) = s.channel := by rw [← hnone]
      simp only [hd.sasl.waits _ _ huser, Option.or_none, ask_nil, List.append_nil, hsame, closeIf]
      split
      · exact hs.close
      · exact hs
    | some user =>
      obtain ⟨s₁, hs₁⟩ : ∃ s₁ : ServedChannel server, s₁ =
          ⟨{ s.channel with user := some user }, (server.sasl.channelRead s.sasl msg.object).state⟩ := ⟨_, rfl⟩
      have hordered : Ordered E s₁ (server.sasl.channelRead s.sasl msg.object).forwarded := by
        refine ⟨(hforwarded.append_left _).trans h.order, fun msg' result' hmem => ?_, h.screened⟩
        obtain ⟨user', huser', -⟩ := h.user msg' result' hmem
        rw [hnone] at huser'
        cases huser'
      have hbounded : Bounded s₁.channel (server.sasl.retained s₁.sasl) := by
        rw [hs₁]
        exact (hb.mono hretained).step (step_authenticate s.channel user)
      have huser₁ : s₁.channel.authenticated = true := by rw [hs₁]; rfl
      simp only [Option.or_none, ← hs₁, closeIf]
      split
      · have hclosed : Ordered E s₁.close _ := hordered.mono (.refl _) rfl
        exact hclosed.asked huser₁ (hbounded.step (step_close _))
      · exact hordered.asked huser₁ hbounded

/-! ### From the authentication gate on -/

/-- The authentication gate and what is behind it. -/
def gating (server : IdentityServer) : ChannelPipeline :=
  (IDENTITY_AUTHENTICATION_GATE, .AuthenticationGate) :: authenticating server

theorem gating_some {msg : Traffic} {channel : GatedChannel} {effects : List GateEffect}
    (hs : s.channel.step (.read msg.object) = some (channel, effects)) : pass (gating server) s msg =
      each (fun s msg => pass (authenticating server) s msg) { s with channel } (effects.filterMap gated) := by
  rw [gating, pass, handle, authenticationGate, hs]
  rfl

theorem gating_none {msg : Traffic} (hs : s.channel.step (.read msg.object) = none) :
    pass (gating server) s msg = (s, []) := by
  rw [gating, pass, handle, authenticationGate, hs]
  rfl

/-- A message behind the decoders. -/
theorem Inv.gating (h : Inv E s) (hd : server.Documented) {F : List ServedEffect} {msg : Traffic}
    (hordered : ∀ s' : ServedChannel server, s'.channel.user = s.channel.user →
      Ordered (E ++ F) s' (s.waiting ++ msg.object.requests)) :
    Inv (E ++ F ++ (pass (ServedChannel.gating server) s msg).2)
      (pass (ServedChannel.gating server) s msg).1 := by
  have hfired (channel : GatedChannel) (hu : channel.user = s.channel.user)
      (hb : Bounded channel (if channel.authenticated then server.sasl.retained s.sasl
        else server.sasl.retained s.sasl ++ msg.object.requests)) :
      Inv (E ++ F ++ (pass (ServedChannel.authenticating server) { s with channel } (.inbound msg.object)).2)
        (pass (ServedChannel.authenticating server) { s with channel } (.inbound msg.object)).1 := by
    have hw : waiting { s with channel } = s.waiting := waiting_user hu rfl
    exact Ordered.authenticating hd (.inbound msg.object) (hw ▸ hordered { s with channel } hu) hb
  have hkept : Inv (E ++ F) s := ⟨(hordered s rfl).mono (List.sublist_append_left ..) rfl, h.bounded⟩
  cases hs : s.channel.step (.read msg.object) with
  | none =>
    rw [gating_none hs]
    simpa using hkept
  | some next =>
    obtain ⟨channel, effects⟩ := next
    have hstep := h.bounded.step hs
    rw [gating_some hs]
    cases GatedChannel.step_inv hs with
    | bypassed hopen hgated =>
      have huser := h.bounded.gate hopen hgated
      simpa [each_singleton, gated] using hfired s.channel rfl (by simpa [huser] using h.bounded)
    | leaves hopen hgated huser =>
      have huser' : s.channel.removeGate.authenticated = true := huser
      have hremoved := hfired s.channel.removeGate rfl (by simpa [huser'] using hstep)
      simpa [each_singleton, List.filterMap_cons, gated] using hremoved
    | uncounted hopen hgated huser hkind =>
      simpa [each_singleton, gated] using hfired s.channel rfl (by simpa [huser] using h.bounded.read huser hs)
    | counted hopen hgated huser hkind hcount =>
      next kind =>
      obtain ⟨channel, hchannel⟩ : ∃ channel,
          channel = { s.channel with gate := s.channel.gate.increment kind } := ⟨_, rfl⟩
      have huser' : channel.authenticated = false := by rw [hchannel]; exact huser
      have hb : Bounded channel _ := hchannel ▸ h.bounded.read huser hs
      rw [← hchannel]
      simpa [each_singleton, gated] using hfired channel (by rw [hchannel]) (by simpa [huser'] using hb)
    | excess hopen hgated huser hkind hcount =>
      simp only [gated, List.filterMap_cons, List.filterMap_nil, each, List.append_nil]
      exact ⟨(hordered _ rfl).mono (List.sublist_append_left ..) rfl, hstep⟩

/-! ### From the decoders on -/

/-- The decoders and what is behind them. -/
def decoding (server : IdentityServer) : ChannelPipeline :=
  (REQUEST_TEXT_DECODER, .upstream) :: (server.upstream.binaryDecoder, .upstream) :: gating server

theorem handle_binaryDecoder (hd : server.upstream.Ordered) (s : ServedChannel server) (msg : Traffic) :
    s.handle (server.upstream.binaryDecoder, .upstream) msg =
      s.decoder msg (server.decoders.binaryDecode server.channelizer msg) := by
  have hdistinct := hd.distinct
  simp only [List.nodup_cons, List.mem_cons, List.not_mem_nil, or_false, not_or] at hdistinct
  simp only [handle, if_neg (Ne.symm hdistinct.1.1), if_true]

/-- A decoder fires a request that it has decoded, -/
theorem pass_decoded {entry : JString × Handler} {rest : ChannelPipeline} {msg : Traffic}
    {request : RequestMessage} (h : s.handle entry msg = s.decoder msg (some request)) :
    pass (entry :: rest) s msg = ((pass rest s (.inbound (.request request))).1,
      .decoded request :: (pass rest s (.inbound (.request request))).2) := by
  rw [pass, h]
  simp only [decoder, each_singleton, List.singleton_append]

/-- or what it has got. -/
theorem pass_undecoded {entry : JString × Handler} {rest : ChannelPipeline} {msg : Traffic}
    (h : s.handle entry msg = s.decoder msg none) : pass (entry :: rest) s msg = pass rest s msg := by
  rw [pass, h]
  simp only [decoder, passOn, each_singleton, List.nil_append]

/-- What is decoded is fired behind the decoders, and all else as it is. -/
theorem decoding_cases (hd : server.upstream.Ordered) (s : ServedChannel server) (msg : FrameMessage) :
    (∃ request, (server.decoders.textDecode server.channelizer (.frame msg) = some request ∨
        server.decoders.binaryDecode server.channelizer (.frame msg) = some request) ∧
      pass (decoding server) s (.frame msg) = ((pass (gating server) s (.inbound (.request request))).1,
        .decoded request :: (pass (gating server) s (.inbound (.request request))).2)) ∨
      pass (decoding server) s (.frame msg) = pass (gating server) s (.frame msg) := by
  have htext : s.handle (REQUEST_TEXT_DECODER, .upstream) (.frame msg) =
      s.decoder (.frame msg) (server.decoders.textDecode server.channelizer (.frame msg)) := by
    simp only [handle, if_true]
  have hbinary := handle_binaryDecoder hd s
  cases hfound : server.decoders.textDecode server.channelizer (.frame msg) with
  | some request =>
    have hon : s.handle (server.upstream.binaryDecoder, .upstream) (.inbound (.request request)) =
        s.decoder (.inbound (.request request)) none := hbinary _
    rw [decoding, pass_decoded (hfound ▸ htext), pass_undecoded hon]
    exact .inl ⟨request, .inl rfl, rfl⟩
  | none =>
    rw [decoding, pass_undecoded (hfound ▸ htext)]
    cases hfound' : server.decoders.binaryDecode server.channelizer (.frame msg) with
    | some request => exact .inl ⟨request, .inr rfl, pass_decoded (hfound' ▸ hbinary _)⟩
    | none => exact .inr (pass_undecoded (hfound' ▸ hbinary _))

/-- A message that the MIME guard lets through. -/
theorem Inv.decoding (h : Inv E s) (hd : server.Documented) {msg : FrameMessage}
    (hp : ∀ frame, msg = .frame frame → MimeGuard.Passes frame) :
    Inv (E ++ (pass (ServedChannel.decoding server) s (.frame msg)).2)
      (pass (ServedChannel.decoding server) s (.frame msg)).1 := by
  rcases decoding_cases hd.upstream s msg with ⟨request, hfound, heq⟩ | heq
  · have hscreened := decode_screened hd.decoders hd.init hp hfound
    rw [heq, ← List.singleton_append, ← List.append_assoc]
    refine h.gating hd fun s' hu => ⟨?_, fun msg' result hmem => ?_, fun request' hr => ?_⟩
    · have horder := h.ordered.order.append_right [request]
      rw [List.append_assoc] at horder
      simpa [ServedChannel.asked, decoded, Traffic.object, Inbound.requests] using horder
    · rw [hu]
      exact h.ordered.user msg' result (by simpa using hmem)
    · simp only [decoded_append, List.mem_append] at hr
      rcases hr with hr | hr
      · exact h.ordered.screened request' hr
      · obtain rfl : request' = request := by simpa [decoded] using hr
        exact hscreened
  · have hnone : (Traffic.frame msg).object.requests = [] := by cases msg <;> rfl
    rw [heq, ← List.append_nil E]
    refine h.gating hd fun s' hu => ?_
    rw [hnone, List.append_nil, List.append_nil]
    exact h.ordered.mono (.refl _) hu

/-! ### From the MIME guard on -/

/-- What the MIME guard makes of a message. -/
theorem mimeGuard_cases (s : ServedChannel server) (msg : FrameMessage) :
    s.mimeGuard (.frame msg) = ⟨s.close, [], []⟩ ∨
      s.mimeGuard (.frame msg) = s.passOn (.frame msg) ∧ ∀ frame, msg = .frame frame →
        MimeGuard.Passes frame := by
  cases msg with
  | other identity => exact .inr ⟨rfl, nofun⟩
  | frame frame =>
    obtain ⟨reads, effects, hread, hpasses, hrefused, -⟩ := MimeGuard.channelRead_eq server.ascii frame
    rw [mimeGuard, hread]
    by_cases hp : MimeGuard.Passes frame
    · refine .inr ⟨?_, fun frame' hf => ?_⟩
      · rw [hpasses hp]
        rfl
      · cases hf
        exact hp
    · rw [hrefused hp]
      exact .inl rfl

theorem Inv.path (h : Inv E s) (hd : server.Documented) (msg : FrameMessage) :
    Inv (E ++ (pass server.upstream.path s (.frame msg)).2) (pass server.upstream.path s (.frame msg)).1 := by
  have hpath : server.upstream.path = (IDENTITY_MIME_GUARD, .MimeGuard) :: ServedChannel.decoding server := rfl
  rw [hpath, pass, handle]
  rcases mimeGuard_cases s msg with hm | ⟨hm, hpasses⟩
  · simp only [hm, each, List.append_nil]
    exact h.close
  · simp only [hm, passOn, each_singleton, List.nil_append]
    exact h.decoding hd hpasses

/-! ### The configured pipeline -/

/-- A handler that does not act passes a message on. -/
theorem handle_passOn {entry : JString × Handler} (h : server.upstream.acts entry = false)
    (s : ServedChannel server) (msg : Traffic) : s.handle entry msg = s.passOn msg := by
  simp only [UpstreamPipeline.acts, Bool.or_eq_false_iff, bne_eq_false_iff_eq, List.contains_cons,
    List.contains_nil, Bool.or_false, beq_eq_false_iff_ne] at h
  obtain ⟨hhandler, htext, hbinary, hauthenticator⟩ := h
  simp only [handle, hhandler, if_neg htext, if_neg hbinary, if_neg hauthenticator]

/-- A message passes the handlers that act. -/
theorem pass_filter (pipeline : ChannelPipeline) (s : ServedChannel server) (msg : Traffic) :
    pass pipeline s msg = pass (pipeline.filter server.upstream.acts) s msg := by
  induction pipeline generalizing s msg with
  | nil => rfl
  | cons entry rest ih =>
    cases hacts : server.upstream.acts entry with
    | true =>
      rw [List.filter_cons_of_pos hacts, pass, pass]
      have hrest : (fun s msg => pass rest s msg) =
          fun (s : ServedChannel server) msg => pass (rest.filter server.upstream.acts) s msg :=
        funext fun s => funext fun msg => ih s msg
      rw [hrest]
    | false =>
      rw [List.filter_cons_of_neg (by simp [hacts]), pass, handle_passOn hacts]
      simp only [passOn, each_singleton, List.nil_append]
      exact ih s msg

theorem Inv.step (h : Inv E s) (hd : server.Documented) {pipeline : ChannelPipeline}
    (hc : configure server.upstream = some pipeline) {event : Event} {effects : List ServedEffect}
    (hs : s.step pipeline event = some (s', effects)) : Inv (E ++ effects) s' := by
  cases event with
  | frame msg =>
    simp only [ServedChannel.step, Option.ite_none_right_eq_some, Option.some.injEq] at hs
    obtain ⟨-, hs⟩ := hs
    have hafter := h.path hd msg
    rwa [← configure_filter hd.upstream hc, ← pass_filter, hs] at hafter
  | deadline | close | unregister =>
    simp only [ServedChannel.step, Option.map_eq_some_iff, Prod.mk.injEq, Prod.exists] at hs
    obtain ⟨channel, gateEffects, hchannel, rfl, rfl⟩ := hs
    have huser : channel.user = s.channel.user := by
      cases GatedChannel.step_inv hchannel <;> rfl
    have hw : waiting { s with channel } = s.waiting := waiting_user huser rfl
    rw [List.append_nil]
    exact ⟨h.ordered.mono (by rw [hw]) huser, h.bounded.step hchannel⟩

theorem Inv.opened (hd : server.sasl.Documented) : Inv [] (opened : ServedChannel server) where
  ordered := by
    refine ⟨?_, by simp, by simp [decoded]⟩
    simp [waiting, ServedChannel.opened, GatedChannel.opened, GatedChannel.authenticated, hd.initial,
      ServedChannel.asked, decoded]
  bounded := ⟨[], .start, by simp [ServedChannel.opened, hd.initial]⟩

/-- The events of a channel, with what each has done. -/
abbrev History (server : IdentityServer) := List (Moment (ServedChannel server) Event ServedEffect)

/-- What has been done in a run. -/
def done (history : History server) : List ServedEffect := history.flatMap (·.effects)

theorem Inv.run (hd : server.Documented) {pipeline : ChannelPipeline}
    (hc : configure server.upstream = some pipeline) {history : History server}
    (h : Run (ServedChannel.step pipeline) ServedChannel.opened history s) : Inv (done history) s := by
  refine h.invariant (I := fun history s => Inv (done history) s) (.opened hd.sasl) ?_
  intro history before event after effects hi hs
  have hnext := hi.step hd hc hs
  simpa [done] using hnext

/-- **Served in order.** In every run of a channel with the configured pipeline: the requests that
come to the request gate, and then those that still wait, are among the decoded ones, in their order
and none twice; the gate is asked for the user that the channel is authenticated for, and none is
asked before there is one; and of each kind no more requests are held back than its bound. -/
theorem served (hd : server.Documented) {pipeline : ChannelPipeline}
    (hc : configure server.upstream = some pipeline) {history : History server}
    (h : Run (ServedChannel.step pipeline) ServedChannel.opened history s) :
    (asked (done history) ++ s.waiting).Sublist (decoded (done history)) ∧
    (∀ msg result, .asked msg result ∈ done history → ∃ user, s.channel.user = some user ∧
      result = RequestGate.channelRead server.tp (some user) (message msg)) ∧
    ∀ kind, (server.sasl.retained s.sasl).countP (ofKind kind) ≤ kind.limit := by
  have hi := Inv.run hd hc h
  exact ⟨hi.ordered.order, hi.ordered.user, hi.bounded.limit⟩

/-- **What is executed.** What the request gate forwards, at whatever moment of a run, is of a
request that has been screened before it was deserialized, asked of the channel's user; and unless
that is the operator it is the application's, with its code, every step of it, admitted. -/
theorem executed (hd : server.Documented) {pipeline : ChannelPipeline}
    (hc : configure server.upstream = some pipeline) {history : History server}
    (h : Run (ServedChannel.step pipeline) ServedChannel.opened history s) {request : RequestMessage}
    {actions : List ChannelAction} {out : Message} (he : .asked (.request request) (.ok actions) ∈ done history)
    (hf : .fireChannelRead out ∈ actions) :
    ∃ user, s.channel.user = some user ∧ Screened server.decoders request ∧
      (¬ OperatorUser (some user) → Applied server.tp user request out) := by
  have hi := Inv.run hd hc h
  obtain ⟨user, huser, hresult⟩ := hi.ordered.user _ _ he
  refine ⟨user, huser, ?_, fun hu => RequestGate.applied hd.tp hu hresult.symm hf⟩
  have hmem : request ∈ asked (done history) :=
    List.mem_flatMap.2 ⟨_, he, by simp [Inbound.requests]⟩
  rcases hi.ordered.screened request (hi.ordered.order.subset (List.mem_append_left _ hmem)) with rfl | hs
  · exact absurd hd.decoders.invalid (RequestGate.asked_op hresult.symm hf)
  · exact hs

/-! ## A channel that is served -/

/-- The request's id, as a client writes it. -/
def sampleId : Json := .object [AT_TYPE, AT_VALUE]
  [.string (utf16 "g:UUID"), .string (utf16 "00000000-0000-0001-0000-000000000002")]

/-- `g.V()`, as a client sends it. -/
def traversalInput : JString :=
  ["\x7b\"requestId\":\x7b\"@type\":\"g:UUID\",\"@value\":\"00000000-0000-0001-0000-000000000002\"\x7d,",
    "\"op\":\"bytecode\",\"processor\":\"traversal\",\"args\":\x7b\"@type\":\"g:Map\",\"@value\":[\"gremlin\",",
    "\x7b\"@type\":\"g:Bytecode\",\"@value\":\x7b\"step\":[[\"V\"]]\x7d\x7d,\"aliases\",",
    "\x7b\"@type\":\"g:Map\",\"@value\":[\"g\",\"g\"]\x7d]\x7d\x7d"].flatMap utf16

/-- The JSON of a traversal. -/
def traversalTree : Json := .object (["requestId", "op", "processor", "args"].map utf16)
  [sampleId, .string (utf16 "bytecode"), .string (utf16 "traversal"),
    .object [AT_TYPE, AT_VALUE] [.string (utf16 "g:Map"), .array [.string (utf16 "gremlin"),
      .object [AT_TYPE, AT_VALUE] [.string (utf16 "g:Bytecode"),
        .object [utf16 "step"] [.array [.array [.string (utf16 "V")]]]],
      .string (utf16 "aliases"),
      .object [AT_TYPE, AT_VALUE] [.string (utf16 "g:Map"),
        .array [.string (utf16 "g"), .string (utf16 "g")]]]]]

/-- The request that it stands for. -/
def traversal : RequestMessage where
  requestId := (1, 2)
  op := some (utf16 "bytecode")
  processor := some (utf16 "traversal")
  args := [(.string (utf16 "gremlin"), .bytecode (.mk true [] [.mk (some (utf16 "V")) []])),
    (.string (utf16 "aliases"), gAliases)]

/-- A login, as a client sends it. -/
def loginInput : JString :=
  ["\x7b\"requestId\":\x7b\"@type\":\"g:UUID\",\"@value\":\"00000000-0000-0001-0000-000000000002\"\x7d,",
    "\"op\":\"authentication\",\"processor\":\"\",\"args\":\x7b\"@type\":\"g:Map\",\"@value\":[\"sasl\",",
    "\"AGNhcnR5eF9hcHAAcHc=\"]\x7d\x7d"].flatMap utf16

/-- Its JSON. -/
def loginTree : Json := .object (["requestId", "op", "processor", "args"].map utf16)
  [sampleId, .string (utf16 "authentication"), .string [],
    .object [AT_TYPE, AT_VALUE] [.string (utf16 "g:Map"),
      .array [.string (utf16 "sasl"), .string (utf16 "AGNhcnR5eF9hcHAAcHc=")]]]

/-- The request that it stands for. -/
def login : RequestMessage where
  requestId := (1, 2)
  op := some (utf16 "authentication")
  processor := some []
  args := [(.string (utf16 "sasl"), .string (utf16 "AGNhcnR5eF9hcHAAcHc="))]

/-- The traversal's text, within the decoder's limits. -/
def traversalText : JsonText := ⟨262, traversalTree, by decide +kernel⟩

/-- The login's text, within the decoder's limits. -/
def loginText : JsonText := ⟨183, loginTree, by decide +kernel⟩

theorem length_traversalInput : traversalInput.length = 262 := by decide +kernel

theorem length_loginInput : loginInput.length = 183 := by decide +kernel

/-- Decoders that know the two texts. -/
def sampleDecoders : Decoders where
  jackson := ⟨fun text => .ok text.tree⟩
  json input :=
    if input = traversalInput then some traversalText else if input = loginInput then some loginText else none
  readValue input :=
    if input = traversalInput then some traversal else if input = loginInput then some login else none
  binary := signedLengthDecoder
  text := List.map UInt8.toUInt16
  other _ _ := none
  fallback := ⟨.other (utf16 "GraphBinaryMessageSerializerV1"), 0⟩
  invalid := ⟨(0, 0), none, none, []⟩

theorem sampleDecoders_documented : sampleDecoders.Documented where
  length input text h := by
    simp only [sampleDecoders] at h
    split at h
    · next hi =>
      rw [← Option.some.inj h, hi, length_traversalInput, traversalText]
    · split at h
      · next hi => rw [← Option.some.inj h, hi, length_loginInput, loginText]
      · cases h
  invalid := rfl

/-- One password is known, and what comes before it is held back. -/
def sampleReaction (held : List RequestMessage) :
    Inbound → SaslAuthenticationHandler.Reaction (List RequestMessage)
  | .request request =>
    if request.op = some (utf16 "authentication") ∧ request.args.length = 1 then
      ⟨[], some ⟨utf16 "cartyx_app", false⟩, held, false⟩
    else ⟨held ++ [request], none, [], false⟩
  | .other _ => ⟨held, none, [], true⟩

theorem sampleReaction_sublist (held : List RequestMessage) (msg : Inbound) :
    ((sampleReaction held msg).forwarded ++ (sampleReaction held msg).state).Sublist (held ++ msg.requests) := by
  cases msg with
  | request request =>
    simp only [sampleReaction]
    split
    · rw [List.append_nil]
      exact List.sublist_append_left ..
    · exact .refl _
  | other => simp [sampleReaction, Inbound.requests]

theorem sampleReaction_waits (held : List RequestMessage) (msg : Inbound)
    (h : (sampleReaction held msg).user = none) : (sampleReaction held msg).forwarded = [] := by
  cases msg with
  | request request =>
    simp only [sampleReaction] at h ⊢
    split at h
    · cases h
    · next hn => rw [if_neg hn]
  | other => rfl

/-- A SASL handler that takes the first login. -/
def sampleSasl : SaslAuthenticationHandler := ⟨List RequestMessage, [], id, sampleReaction⟩

theorem sampleSasl_documented : sampleSasl.Documented where
  initial := rfl
  waits := sampleReaction_waits
  request held request := sampleReaction_sublist held (.request request)
  other held _ := List.Sublist.refl held

/-- The handlers that TinkerPop's channelizer installs. -/
def sampleUpstream : UpstreamPipeline where
  handlers := ["http-server", "web-socket-server-compression-handler", "web-socket-server",
    "request-text-decoder",
    "request-binary-decoder", "authenticator", "authorizer", "op-selector", "op-executor"].map utf16
  compression := utf16 "web-socket-server-compression-handler"
  authenticator := utf16 "authenticator"
  authorizer := utf16 "authorizer"
  binaryDecoder := utf16 "request-binary-decoder"
  decoders := by decide +kernel
  kept := by decide +kernel

theorem isSome_sampleUpstream : (configure sampleUpstream).isSome = true := by decide +kernel

/-- The pipeline of a channel of the server. -/
def samplePipeline : ChannelPipeline := (configure sampleUpstream).get isSome_sampleUpstream

theorem samplePipeline_configured : configure sampleUpstream = some samplePipeline := (Option.some_get _).symm

/-- A server with all of these. -/
def sampleServer : IdentityServer := ⟨sampleUpstream, ⟨UInt8.toUInt16, fun _ _ => rfl, fun byte h => by
  simpa [UInt16.le_iff_toNat_le, UInt8.le_iff_toNat_le] using h⟩,
  .reference, twoSerializers, sampleDecoders, sampleSasl⟩

theorem sampleServer_documented : sampleServer.Documented :=
  ⟨⟨by decide +kernel, by decide +kernel, by decide +kernel⟩, by decide +kernel,
    TinkerPop.reference_documented, sampleDecoders_documented, sampleSasl_documented⟩

/-- A text frame with all of its content readable. -/
def textFrame (input : JString) : Event :=
  .frame (.frame ⟨.text, true, 0, ⟨input.map UInt16.toUInt8, 0, (input.map UInt16.toUInt8).length, by simp⟩⟩)

/-- The application asks, and is asked to log in first. -/
def sampleEvents : List Event := [textFrame traversalInput, textFrame loginInput]

/-- Whether the request gate has forwarded a request. -/
def forwarded : ServedEffect → Bool
  | .asked (.request _) (.ok actions) => actions.any fun
    | .fireChannelRead _ => true
    | _ => false
  | _ => false

theorem forwarded_iff {effect : ServedEffect} (h : forwarded effect = true) : ∃ request actions out,
    effect = .asked (.request request) (.ok actions) ∧ .fireChannelRead out ∈ actions := by
  unfold forwarded at h
  split at h
  · next request actions =>
    obtain ⟨action, hmem, haction⟩ := List.any_eq_true.1 h
    cases action with
    | fireChannelRead out => exact ⟨request, actions, out, rfl, hmem⟩
    | writeAndFlush | close => cases haction
  · cases h

theorem sampleRun : ∃ (history : History sampleServer) (s : ServedChannel sampleServer),
    Run (ServedChannel.step samplePipeline) ServedChannel.opened history s ∧
      (decoded (done history)).length = 2 ∧
      ∃ effect ∈ done history, forwarded effect = true := by
  have hrun : ((Run.replay (ServedChannel.step samplePipeline) (ServedChannel.opened : ServedChannel sampleServer)
      sampleEvents).map fun run => ((decoded (done run.1)).length, (done run.1).any forwarded)) =
        some (2, true) := by decide +kernel
  obtain ⟨⟨history, s⟩, hreplay, hresult⟩ := Option.map_eq_some_iff.1 hrun
  simp only [Prod.mk.injEq] at hresult
  exact ⟨history, s, Run.of_replay .start hreplay, hresult.1, List.any_eq_true.1 hresult.2⟩

theorem served_sample : ∃ (history : History sampleServer) (s : ServedChannel sampleServer),
    (decoded (done history)).length = 2 ∧
      (asked (done history) ++ s.waiting).Sublist (decoded (done history)) := by
  obtain ⟨history, s, hrun, hlength, -⟩ := sampleRun
  exact ⟨history, s, hlength, (served sampleServer_documented samplePipeline_configured hrun).1⟩

theorem executed_sample :
    ∃ (history : History sampleServer) (s : ServedChannel sampleServer) (request : RequestMessage),
      request ∈ asked (done history) ∧
        ∃ user, s.channel.user = some user ∧ Screened sampleServer.decoders request := by
  obtain ⟨history, s, hrun, -, effect, heffect, hforwarded⟩ := sampleRun
  obtain ⟨request, actions, out, rfl, hout⟩ := forwarded_iff hforwarded
  obtain ⟨user, huser, hscreened, -⟩ := executed sampleServer_documented samplePipeline_configured hrun heffect hout
  have hasked : request ∈ asked (done history) :=
    List.mem_flatMap.2 ⟨_, heffect, by simp [Inbound.requests]⟩
  exact ⟨history, s, request, hasked, user, huser, hscreened⟩

end ServedChannel

end CartyxInfra.Gremlin
