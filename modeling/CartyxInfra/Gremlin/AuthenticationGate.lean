/-
`AuthenticationGate`: what a channel may send before it is authenticated.

The gate counts requests and authentication attempts apart, closes the channel
at the first beyond either bound, and at a deadline; the first message that
finds the channel authenticated takes it out of the pipeline, and its timer
with it. Messages, the end of an authentication, the deadline and the close of
the channel may come in any order (`gate_owed`).
-/
import CartyxInfra.Lib.Trace
import CartyxInfra.Gremlin.Values

namespace CartyxInfra.Gremlin

open JString

/-- What comes in: a request, or another object, told apart by its identity. -/
inductive Inbound
  | request (request : RequestMessage)
  | other (identity : Nat)

/-- What a handler does to its channel. -/
inductive GateEffect
  | fireChannelRead (message : Inbound)
  | release (message : Inbound)
  | close
  /-- `ctx.pipeline().remove(this)`. -/
  | remove

/-- A `ScheduledFuture`. -/
inductive Timer
  | scheduled (delayMillis : Nat)
  | done
  | cancelled
  deriving DecidableEq

/-- `cancel(false)`: nothing where it is done. -/
def Timer.cancel : Timer → Timer
  | .scheduled _ => .cancelled
  | timer => timer

/-- The handler's fields. -/
structure AuthenticationGate where
  pending : Nat
  attempts : Nat
  deadline : Option Timer

namespace AuthenticationGate

/-- How many requests are let through before the authentication. -/
def MAX_PENDING : Nat := 8

/-- How many attempts at it are. -/
def MAX_AUTHENTICATION : Nat := 4

/-- How long a channel may stay without one. -/
def DEADLINE_MILLIS : Nat := 15000

/-- The handler as the channelizer makes it. -/
def new : AuthenticationGate := ⟨0, 0, none⟩

/-- The handler comes into a pipeline, and arms its timer. -/
def handlerAdded (gate : AuthenticationGate) : AuthenticationGate :=
  { gate with deadline := some (.scheduled DEADLINE_MILLIS) }

/-- The handler leaves the pipeline, and cancels its timer. -/
def handlerRemoved (gate : AuthenticationGate) : AuthenticationGate :=
  { gate with deadline := gate.deadline.map Timer.cancel }

/-- `channelRead`, on a channel that is authenticated or not. -/
def channelRead (gate : AuthenticationGate) (authenticated : Bool) (msg : Inbound) :
    AuthenticationGate × List GateEffect :=
  if authenticated then (gate, [.remove, .fireChannelRead msg])
  else
    match msg with
    | .request request =>
      if request.op == some (utf16 "authentication") then
        let gate := { gate with attempts := gate.attempts + 1 }
        if gate.attempts > MAX_AUTHENTICATION then (gate, [.release msg, .close])
        else (gate, [.fireChannelRead msg])
      else
        let gate := { gate with pending := gate.pending + 1 }
        if gate.pending > MAX_PENDING then (gate, [.release msg, .close])
        else (gate, [.fireChannelRead msg])
    | .other _ => (gate, [.fireChannelRead msg])

/-- The task of the deadline. -/
def onDeadline (authenticated : Bool) : List GateEffect := if authenticated then [] else [.close]

end AuthenticationGate

/-! ## A channel with the gate -/

/-- A channel with the gate in its pipeline, or without it. -/
structure GatedChannel where
  isOpen : Bool
  /-- `StateKey.AUTHENTICATED_USER`. -/
  user : Option AuthenticatedUser
  gate : AuthenticationGate
  /-- Whether the gate is in the pipeline. -/
  gated : Bool

namespace GatedChannel

/-- A channel whose pipeline has just got its gate. -/
def opened : GatedChannel := ⟨true, none, AuthenticationGate.new.handlerAdded, true⟩

/-- The gate finds a user on the channel. -/
def authenticated (channel : GatedChannel) : Bool := channel.user.isSome

/-- The gate leaves the pipeline. -/
def removeGate (channel : GatedChannel) : GatedChannel :=
  { channel with gate := channel.gate.handlerRemoved, gated := false }

/-- What an effect of the gate does to the channel. -/
def perform (channel : GatedChannel) : GateEffect → GatedChannel
  | .fireChannelRead _ | .release _ => channel
  | .close => { channel with isOpen := false }
  | .remove => channel.removeGate

/-- What happens to the channel. -/
inductive Event
  | read (msg : Inbound)
  /-- The handler behind the gate is done with an authentication. -/
  | authenticate (user : AuthenticatedUser)
  | deadline
  /-- The channel is closed from elsewhere: by the peer or another handler. -/
  | close
  /-- A closed channel's pipeline is torn down. -/
  | unregister

/-- None where an event cannot come: nothing is read of a closed channel, and
a timer that is done or cancelled does not fire. -/
def step (channel : GatedChannel) : Event → Option (GatedChannel × List GateEffect)
  | .read msg =>
    if !channel.isOpen then none
    else if channel.gated then
      let (gate, effects) := channel.gate.channelRead channel.authenticated msg
      some (effects.foldl perform { channel with gate }, effects)
    else some (channel, [.fireChannelRead msg])
  | .authenticate user => some ({ channel with user := some user }, [])
  | .deadline =>
    match channel.gate.deadline with
    | some (.scheduled _) =>
      let effects := AuthenticationGate.onDeadline channel.authenticated
      some (effects.foldl perform { channel with gate := { channel.gate with deadline := some .done } },
        effects)
    | _ => none
  | .close => some ({ channel with isOpen := false }, [])
  | .unregister =>
    if channel.isOpen then none
    else some (if channel.gated then channel.removeGate else channel, [])

end GatedChannel

/-! ## What is counted -/

/-- The two kinds of requests, each with its own counter. -/
inductive Kind
  | request
  | authentication
  deriving DecidableEq

/-- How many of a kind are let through before the authentication. -/
def Kind.limit : Kind → Nat
  | .request => AuthenticationGate.MAX_PENDING
  | .authentication => AuthenticationGate.MAX_AUTHENTICATION

/-- What the gate takes a message for. -/
def Inbound.kind : Inbound → Option Kind
  | .request message =>
    some (if message.op == some (utf16 "authentication") then .authentication else .request)
  | .other _ => none

namespace AuthenticationGate

/-- The counter of a kind. -/
def count (gate : AuthenticationGate) : Kind → Nat
  | .request => gate.pending
  | .authentication => gate.attempts

/-- The counter of a kind goes up. -/
def increment (gate : AuthenticationGate) : Kind → AuthenticationGate
  | .request => { gate with pending := gate.pending + 1 }
  | .authentication => { gate with attempts := gate.attempts + 1 }

variable {gate : AuthenticationGate} {msg : Inbound} {kind kind' : Kind}

@[simp] theorem count_handlerRemoved :
    gate.handlerRemoved.count kind = gate.count kind := by cases kind <;> rfl

@[simp] theorem count_deadline {timer : Option Timer} :
    { gate with deadline := timer }.count kind = gate.count kind := by
  cases kind <;> rfl

@[simp] theorem deadline_increment : (gate.increment kind).deadline = gate.deadline := by cases kind <;> rfl

theorem count_increment :
    (gate.increment kind).count kind' = gate.count kind' + if kind = kind' then 1 else 0 := by
  cases kind <;> cases kind' <;> rfl

theorem handlerRemoved_deadline {delayMillis : Nat} :
    gate.handlerRemoved.deadline ≠ some (.scheduled delayMillis) := by
  cases h : gate.deadline with
  | none => simp [handlerRemoved, h]
  | some timer => cases timer <;> simp [handlerRemoved, h, Timer.cancel]

theorem channelRead_other (h : msg.kind = none) :
    gate.channelRead false msg = (gate, [.fireChannelRead msg]) := by
  cases msg with
  | request => cases h
  | other => rfl

theorem bounded {α β : Type} {n limit : Nat} {a : α} {within beyond : β} :
    (if n + 1 > limit then (a, beyond) else (a, within)) = (a, if n < limit then within else beyond) := by
  by_cases h : n < limit
  · rw [if_neg (by omega), if_pos h]
  · rw [if_pos (by omega), if_neg h]

theorem channelRead_request (h : msg.kind = some kind) : gate.channelRead false msg =
    (gate.increment kind,
      if gate.count kind < kind.limit then [.fireChannelRead msg] else [.release msg, .close]) := by
  cases msg with
  | other => cases h
  | request request =>
    simp only [Inbound.kind, Option.some.injEq] at h
    subst h
    simp only [channelRead, Bool.false_eq_true, if_false]
    split
    · exact bounded
    · exact bounded

end AuthenticationGate

namespace GatedChannel

/-- What an event can be to a channel. -/
inductive Stepped (channel : GatedChannel) : Event → List GateEffect → GatedChannel → Prop
  /-- There is no gate any more. -/
  | bypassed (hopen : channel.isOpen = true) (hgated : channel.gated = false) :
      Stepped channel (.read msg) [.fireChannelRead msg] channel
  | leaves (hopen : channel.isOpen = true) (hgated : channel.gated = true)
      (huser : channel.authenticated = true) :
      Stepped channel (.read msg) [.remove, .fireChannelRead msg] channel.removeGate
  | uncounted (hopen : channel.isOpen = true) (hgated : channel.gated = true)
      (huser : channel.authenticated = false)
      (hkind : msg.kind = none) : Stepped channel (.read msg) [.fireChannelRead msg] channel
  | counted (hopen : channel.isOpen = true) (hgated : channel.gated = true)
      (huser : channel.authenticated = false)
      (hkind : msg.kind = some kind) (hcount : channel.gate.count kind < kind.limit) :
      Stepped channel (.read msg) [.fireChannelRead msg] { channel with gate := channel.gate.increment kind }
  | excess (hopen : channel.isOpen = true) (hgated : channel.gated = true)
      (huser : channel.authenticated = false)
      (hkind : msg.kind = some kind) (hcount : kind.limit ≤ channel.gate.count kind) :
      Stepped channel (.read msg) [.release msg, .close]
        { channel with isOpen := false, gate := channel.gate.increment kind }
  | authenticate {user : AuthenticatedUser} :
      Stepped channel (.authenticate user) [] { channel with user := some user }
  | deadline (htimer : channel.gate.deadline = some (.scheduled delayMillis)) :
      Stepped channel .deadline (AuthenticationGate.onDeadline channel.authenticated)
        { channel with
          isOpen := channel.isOpen && channel.authenticated
          gate := { channel.gate with deadline := some .done } }
  | close : Stepped channel .close [] { channel with isOpen := false }
  | unregister (hclosed : channel.isOpen = false) (hgated : channel.gated = true) :
      Stepped channel .unregister [] channel.removeGate
  | unregistered (hclosed : channel.isOpen = false) (hgated : channel.gated = false) :
      Stepped channel .unregister [] channel

theorem step_inv {channel channel' : GatedChannel} {event : Event} {effects : List GateEffect}
    (h : channel.step event = some (channel', effects)) : Stepped channel event effects channel' := by
  cases event with
  | read msg =>
    obtain ⟨isOpen, user, gate, gated⟩ := channel
    cases isOpen <;> simp only [step, Bool.not_false, Bool.not_true, if_true, Bool.false_eq_true, if_false,
      reduceCtorEq] at h
    cases gated <;> simp only [if_true, Bool.false_eq_true, if_false, Option.some.injEq, Prod.mk.injEq] at h
    · obtain ⟨rfl, rfl⟩ := h
      exact .bypassed rfl rfl
    · obtain ⟨rfl, rfl⟩ := h
      cases huser : authenticated ⟨true, user, gate, true⟩ with
      | true => exact .leaves rfl rfl huser
      | false =>
        cases hkind : msg.kind with
        | none =>
          rw [AuthenticationGate.channelRead_other hkind]
          exact .uncounted rfl rfl huser hkind
        | some kind =>
          rw [AuthenticationGate.channelRead_request hkind]
          by_cases hcount : gate.count kind < kind.limit
          · simp only [if_pos hcount]
            exact .counted rfl rfl huser hkind hcount
          · simp only [if_neg hcount]
            exact .excess rfl rfl huser hkind (Nat.not_lt.mp hcount)
  | authenticate user =>
    simp only [step, Option.some.injEq, Prod.mk.injEq] at h
    obtain ⟨rfl, rfl⟩ := h
    exact .authenticate
  | deadline =>
    simp only [step] at h
    split at h
    · next delay htimer =>
      simp only [Option.some.injEq, Prod.mk.injEq] at h
      obtain ⟨rfl, rfl⟩ := h
      have hs := Stepped.deadline htimer
      cases huser : channel.authenticated <;> simpa [huser, AuthenticationGate.onDeadline, perform] using hs
    · cases h
  | close =>
    simp only [step, Option.some.injEq, Prod.mk.injEq] at h
    obtain ⟨rfl, rfl⟩ := h
    exact .close
  | unregister =>
    simp only [step] at h
    cases hclosed : channel.isOpen <;>
      simp only [hclosed, Bool.false_eq_true, if_false, if_true, Option.some.injEq,
      Prod.mk.injEq, reduceCtorEq] at h
    obtain ⟨rfl, rfl⟩ := h
    cases hgated : channel.gated with
    | true => exact .unregister hclosed hgated
    | false => exact .unregistered hclosed hgated

/-! ## Over a run -/

/-- A message is read of an authenticated channel. -/
def ReadAuthenticated (moment : Moment GatedChannel Event GateEffect) : Prop :=
  moment.before.authenticated = true ∧ ∃ msg, moment.event = .read msg

/-- What is done before the channel is authenticated. -/
def early (moment : Moment GatedChannel Event GateEffect) : List GateEffect :=
  if moment.before.authenticated then [] else moment.effects

/-- The effect hands on a message of the kind. -/
def forwards (kind : Kind) : GateEffect → Bool
  | .fireChannelRead msg => msg.kind == some kind
  | _ => false

/-- How many requests of a kind have been forwarded before authentication. -/
def passed (kind : Kind) (history : List (Moment GatedChannel Event GateEffect)) : Nat :=
  (history.flatMap early).countP (forwards kind)

variable {channel : GatedChannel} {history : List (Moment GatedChannel Event GateEffect)}

theorem passed_append {kind : Kind} {m : Moment GatedChannel Event GateEffect} :
    passed kind (history ++ [m]) = passed kind history + (early m).countP (forwards kind) := by
  simp [passed, List.flatMap_append, List.countP_append]

/-- What holds of a channel with such a history. -/
structure Counting (history : List (Moment GatedChannel Event GateEffect))
    (channel : GatedChannel) : Prop where
  within : ∀ kind, passed kind history ≤ kind.limit
  counts : channel.isOpen = true → ∀ kind, channel.gate.count kind = passed kind history
  timer : channel.gated = false → ∀ delayMillis, channel.gate.deadline ≠ some (.scheduled delayMillis)
  gate : channel.gated = false → channel.isOpen = true → channel.authenticated = true
  stays : channel.gated = true → ∀ m ∈ history, ¬ ReadAuthenticated m

theorem counting_opened : Counting [] opened where
  within _ := Nat.zero_le _
  counts _ kind := by cases kind <;> rfl
  timer h := by cases h
  gate h := by cases h
  stays _ := by simp

section

variable {channel' : GatedChannel} {event : Event} {effects : List GateEffect}

/-- A counter moves with what is forwarded early. -/
theorem Stepped.count (h : Stepped channel event effects channel')
    (hgate : channel.gated = false → channel.isOpen = true → channel.authenticated = true) (kind : Kind) :
    ((early ⟨channel, event, effects, channel'⟩).countP (forwards kind) = 0 ∧
      (channel'.isOpen = true → channel.isOpen = true ∧ channel'.gate.count kind = channel.gate.count kind)) ∨
    (channel.isOpen = true ∧ channel.gate.count kind < kind.limit ∧
      (early ⟨channel, event, effects, channel'⟩).countP (forwards kind) = 1 ∧
      channel'.gate.count kind = channel.gate.count kind + 1) := by
  cases h with
  | bypassed hopen hgated => exact .inl ⟨by simp [early, hgate hgated hopen], fun h => ⟨h, rfl⟩⟩
  | leaves hopen hgated huser =>
    exact .inl ⟨by simp [early, huser], fun h => ⟨h, AuthenticationGate.count_handlerRemoved⟩⟩
  | uncounted hopen hgated huser hkind =>
    exact .inl ⟨by simp [early, huser, forwards, hkind], fun h => ⟨h, rfl⟩⟩
  | counted hopen hgated huser hkind hcount =>
    next other msg =>
    by_cases he : other = kind
    · subst he
      exact .inr ⟨hopen, hcount, by simp [early, huser, forwards, hkind], by
        rw [AuthenticationGate.count_increment, if_pos rfl]⟩
    · exact .inl ⟨by simp [early, huser, forwards, hkind, he], fun h => ⟨h, by
        rw [AuthenticationGate.count_increment, if_neg he, Nat.add_zero]⟩⟩
  | excess hopen hgated huser => exact .inl ⟨by simp [early, huser, forwards], nofun⟩
  | authenticate => exact .inl ⟨by simp [early], fun h => ⟨h, rfl⟩⟩
  | deadline htimer =>
    refine .inl ⟨?_, fun h => ⟨?_, AuthenticationGate.count_deadline⟩⟩
    · cases huser : channel.authenticated <;> simp [early, huser, AuthenticationGate.onDeadline, forwards]
    · simp only [Bool.and_eq_true] at h
      exact h.1
  | close => exact .inl ⟨by simp [early], nofun⟩
  | unregister => exact .inl ⟨by simp [early], fun h => ⟨h, AuthenticationGate.count_handlerRemoved⟩⟩
  | unregistered => exact .inl ⟨by simp [early], fun h => ⟨h, rfl⟩⟩

/-- Once out of the pipeline, the gate has no timer. -/
theorem Stepped.timer (h : Stepped channel event effects channel')
    (ht : channel.gated = false → ∀ delayMillis, channel.gate.deadline ≠ some (.scheduled delayMillis)) :
    channel'.gated = false → ∀ delayMillis, channel'.gate.deadline ≠ some (.scheduled delayMillis) := by
  cases h with
  | bypassed | uncounted | authenticate | close | unregistered => exact ht
  | counted | excess => simpa using ht
  | leaves | unregister => exact fun _ _ => AuthenticationGate.handlerRemoved_deadline
  | deadline => exact fun _ _ h => by cases h

/-- An open channel loses its gate to authentication alone. -/
theorem Stepped.gate (h : Stepped channel event effects channel')
    (hg : channel.gated = false → channel.isOpen = true → channel.authenticated = true) :
    channel'.gated = false → channel'.isOpen = true → channel'.authenticated = true := by
  cases h with
  | bypassed | uncounted | counted | unregistered => exact hg
  | leaves _ _ huser => exact fun _ _ => huser
  | excess | close => exact fun _ => nofun
  | authenticate => exact fun _ _ => rfl
  | deadline =>
    intro _ hopen
    simp only [Bool.and_eq_true] at hopen
    exact hopen.2
  | unregister hclosed =>
    intro _ hopen
    have hboth : channel.isOpen = true := hopen
    rw [hclosed] at hboth
    cases hboth

/-- A channel that still has its gate had it before, and read nothing authenticated. -/
theorem Stepped.stays (h : Stepped channel event effects channel') (hg : channel'.gated = true) :
    channel.gated = true ∧ ¬ ReadAuthenticated ⟨channel, event, effects, channel'⟩ := by
  cases h with
  | bypassed _ hgated | unregistered _ hgated =>
    rw [hgated] at hg
    cases hg
  | leaves | unregister => cases hg
  | uncounted _ _ huser | counted _ _ huser | excess _ _ huser =>
    refine ⟨hg, fun ⟨hauth, _⟩ => ?_⟩
    rw [huser] at hauth
    cases hauth
  | authenticate | deadline | close => exact ⟨hg, fun ⟨_, _, hevent⟩ => by cases hevent⟩

/-- The step of the invariant. -/
theorem Counting.next (h : Counting history channel) (hs : channel.step event = some (channel', effects)) :
    Counting (history ++ [⟨channel, event, effects, channel'⟩]) channel' := by
  have hstep := step_inv hs
  constructor
  · intro kind
    rw [passed_append]
    have hw := h.within kind
    rcases hstep.count h.gate kind with ⟨hnone, -⟩ | ⟨hopen, hlt, hone, -⟩
    · omega
    · have hc := h.counts hopen kind
      omega
  · intro hopen' kind
    rw [passed_append]
    rcases hstep.count h.gate kind with ⟨hnone, hsame⟩ | ⟨hopen, -, hone, hnext⟩
    · obtain ⟨hopen, hsame⟩ := hsame hopen'
      rw [hsame, hnone, h.counts hopen kind, Nat.add_zero]
    · rw [hnext, hone, h.counts hopen kind]
  · exact hstep.timer h.timer
  · exact hstep.gate h.gate
  · intro hgated m hm
    obtain ⟨hbefore, hnot⟩ := hstep.stays hgated
    rcases List.mem_append.mp hm with hm | hm
    · exact h.stays hbefore m hm
    · rw [List.mem_singleton] at hm
      exact hm ▸ hnot

end

theorem Counting.run (h : Run GatedChannel.step opened history channel) : Counting history channel :=
  h.invariant counting_opened fun _ _ _ _ _ hc hs => hc.next hs

/-! ## What the gate owes -/

/-- What the gate owes at a moment, by what came before it. -/
structure Owed (earlier : List (Moment GatedChannel Event GateEffect))
    (m : Moment GatedChannel Event GateEffect) : Prop where
  /-- A message that is no request is forwarded. -/
  other : ∀ msg, m.event = .read msg → m.before.authenticated = false → msg.kind = none →
    m.effects = [.fireChannelRead msg]
  /-- A request within its bound is forwarded. -/
  within : ∀ msg kind, m.event = .read msg → m.before.authenticated = false → msg.kind = some kind →
    passed kind earlier < kind.limit → m.effects = [.fireChannelRead msg]
  /-- The first beyond is released, and closes the channel. -/
  beyond : ∀ msg kind, m.event = .read msg → m.before.authenticated = false → msg.kind = some kind →
    passed kind earlier = kind.limit → m.effects = [.release msg, .close] ∧ m.after.isOpen = false
  /-- Once authenticated, a message is forwarded and not counted, and the gate is gone. -/
  authenticated : ∀ msg, m.event = .read msg → m.before.authenticated = true →
    (m.effects = [.fireChannelRead msg] ∨ m.effects = [.remove, .fireChannelRead msg]) ∧
      m.after.isOpen = true ∧ m.after.gated = false ∧
      (m.after.gate.pending, m.after.gate.attempts) = (m.before.gate.pending, m.before.gate.attempts)
  /-- The deadline closes the channel if it is not authenticated. -/
  deadline : m.event = .deadline →
    (.close ∈ m.effects ↔ m.before.authenticated = false) ∧
      m.after.isOpen = (m.before.isOpen && m.before.authenticated)
  /-- The timer goes with the gate. -/
  cancelled : m.before.gated = true → m.after.gated = false →
    m.after.gate.deadline = m.before.gate.deadline.map Timer.cancel

section

variable {channel' : GatedChannel} {event : Event} {effects : List GateEffect} {msg : Inbound}

/-- A message read before authentication: one of no kind, one within its bound or one beyond. -/
theorem Stepped.read_early (h : Stepped channel (.read msg) effects channel')
    (hgate : channel.gated = false → channel.isOpen = true → channel.authenticated = true)
    (huser : channel.authenticated = false) :
    msg.kind = none ∧ effects = [.fireChannelRead msg] ∨
    ∃ kind, msg.kind = some kind ∧ channel.isOpen = true ∧
      (channel.gate.count kind < kind.limit ∧ effects = [.fireChannelRead msg] ∨
        kind.limit ≤ channel.gate.count kind ∧ effects = [.release msg, .close] ∧
          channel'.isOpen = false) := by
  cases h with
  | bypassed hopen hgated =>
    have hauth := hgate hgated hopen
    rw [huser] at hauth
    cases hauth
  | leaves _ _ hauth =>
    rw [huser] at hauth
    cases hauth
  | uncounted _ _ _ hkind => exact .inl ⟨hkind, rfl⟩
  | counted hopen _ _ hkind hcount => exact .inr ⟨_, hkind, hopen, .inl ⟨hcount, rfl⟩⟩
  | excess hopen _ _ hkind hcount => exact .inr ⟨_, hkind, hopen, .inr ⟨hcount, rfl, rfl⟩⟩

/-- A message read after authentication. -/
theorem Stepped.read_authenticated (h : Stepped channel (.read msg) effects channel')
    (huser : channel.authenticated = true) :
    (effects = [.fireChannelRead msg] ∨ effects = [.remove, .fireChannelRead msg]) ∧
      channel'.isOpen = true ∧ channel'.gated = false ∧
      (channel'.gate.pending, channel'.gate.attempts) = (channel.gate.pending, channel.gate.attempts) := by
  cases h with
  | bypassed hopen hgated => exact ⟨.inl rfl, hopen, hgated, rfl⟩
  | leaves hopen => exact ⟨.inr rfl, hopen, rfl, rfl⟩
  | uncounted _ _ hno | counted _ _ hno | excess _ _ hno =>
    rw [hno] at huser
    cases huser

theorem Stepped.cancelled (h : Stepped channel event effects channel') (hgated : channel.gated = true)
    (hgated' : channel'.gated = false) : channel'.gate.deadline = channel.gate.deadline.map Timer.cancel := by
  cases h with
  | bypassed _ hg | unregistered _ hg =>
    rw [hgated] at hg
    cases hg
  | leaves | unregister => rfl
  | uncounted | counted | excess | authenticate | deadline | close =>
    rw [hgated] at hgated'
    cases hgated'

theorem Stepped.owed (hstep : Stepped channel event effects channel') (h : Counting history channel) :
    Owed history ⟨channel, event, effects, channel'⟩ := by
  constructor
  · rintro msg rfl huser hkind
    rcases hstep.read_early h.gate huser with ⟨-, he⟩ | ⟨kind, hsome, -⟩
    · exact he
    · rw [hkind] at hsome
      cases hsome
  · rintro msg kind rfl huser hkind hlt
    rcases hstep.read_early h.gate huser with ⟨hnone, he⟩ | ⟨kind', hsome, hopen, ⟨-, he⟩ | ⟨hcount, -⟩⟩
    · exact he
    · exact he
    · obtain rfl : kind = kind' := Option.some.inj (hkind.symm.trans hsome)
      have hc := h.counts hopen kind
      omega
  · rintro msg kind rfl huser hkind heq
    rcases hstep.read_early h.gate huser with ⟨hnone, -⟩ | ⟨kind', hsome, hopen, ⟨hcount, -⟩ | ⟨-, he⟩⟩
    · rw [hkind] at hnone
      cases hnone
    · obtain rfl : kind = kind' := Option.some.inj (hkind.symm.trans hsome)
      have hc := h.counts hopen kind
      omega
    · exact he
  · rintro msg rfl huser
    exact hstep.read_authenticated huser
  · rintro rfl
    cases hstep with
    | deadline => exact ⟨by cases channel.authenticated <;> simp [AuthenticationGate.onDeadline], rfl⟩
  · exact hstep.cancelled

end

/-- **The gate.** In every run of a channel: of each kind no more requests are
forwarded before authentication than its bound, the gate does at every moment
what it owes, it is gone once a message has been read after authentication,
and once it is gone its deadline cannot come. -/
theorem gate_owed (h : Run GatedChannel.step opened history channel) :
    (∀ kind, passed kind history ≤ kind.limit) ∧
    (∀ earlier m later, history = earlier ++ m :: later → Owed earlier m) ∧
    ((∃ m ∈ history, ReadAuthenticated m) → channel.gated = false) ∧
    (channel.gated = false → channel.step .deadline = none) := by
  have hcounting := Counting.run h
  refine ⟨hcounting.within, fun earlier m later hm => ?_, fun ⟨m, hm, hread⟩ => ?_, fun hgated => ?_⟩
  · subst hm
    obtain ⟨hbefore, hs⟩ := h.moment rfl
    exact (step_inv hs).owed (Counting.run hbefore)
  · by_contra hgated
    exact hcounting.stays (by simpa using hgated) m hm hread
  · simp only [step]
    split
    · next delay htimer => exact absurd htimer (hcounting.timer hgated delay)
    · rfl

/-- A request is read, the channel authenticated, and another read. -/
def sampleHistory (first second : Inbound) (user : AuthenticatedUser) :
    List (Moment GatedChannel Event GateEffect) :=
  let waiting := { opened with gate := { opened.gate with pending := 1 } }
  let known := { waiting with user := some user }
  [⟨opened, .read first, [.fireChannelRead first], waiting⟩, ⟨waiting, .authenticate user, [], known⟩,
    ⟨known, .read second, [.remove, .fireChannelRead second], known.removeGate⟩]

def sampleInbound : Inbound := .request ⟨(1, 2), some (utf16 "bytecode"), some (utf16 "traversal"), []⟩

theorem sampleHistory_run : Run GatedChannel.step opened
    (sampleHistory sampleInbound (.other 0) ⟨utf16 "cartyx_app", false⟩)
    ⟨true, some ⟨utf16 "cartyx_app", false⟩, ⟨1, 0, some .cancelled⟩, false⟩ :=
  .step (.step (.step .start rfl) rfl) rfl

theorem gate_owed_sample :
    let history := sampleHistory sampleInbound (.other 0) ⟨utf16 "cartyx_app", false⟩
    let channel : GatedChannel := ⟨true, some ⟨utf16 "cartyx_app", false⟩, ⟨1, 0, some .cancelled⟩, false⟩
    (∀ kind, passed kind history ≤ kind.limit) ∧
    (∀ earlier m later, history = earlier ++ m :: later → Owed earlier m) ∧
    ((∃ m ∈ history, ReadAuthenticated m) → channel.gated = false) ∧
    (channel.gated = false → channel.step .deadline = none) :=
  gate_owed sampleHistory_run

end GatedChannel

end CartyxInfra.Gremlin
