/-
What the forwarder of `cql-proxy.py` is for: the client and Cassandra see the
connection they would have without it.

`forwarded` is the simulation, over every interleaving of the forwarder's
threads with its peers, with calls that fail anywhere. `settles` is the other
half: left alone, a connection comes to rest after boundedly many calls, with
everything passed on but what a reader that does not read leaves no room for,
and with its sockets closed once both sides have ended and read.
-/
import CartyxInfra.Local.CqlProxy

namespace CartyxInfra.Local.CqlProxy

namespace Direction

variable {d d' : Direction}

/-- The two ends of a direction are those of a stream. -/
structure Sees (d : Direction) (s : Stream Byte) : Prop where
  sent : d.source.sent = s.sent
  read : d.target.read = s.read
  ended : d.source.ended = s.ended
  seen : d.target.seen = s.seen

theorem Sees.step {s : Stream Byte} (hs : d.Sees s) {h : d.Inv} {hf : d.failed = false} {h' : d'.Inv}
    {hf' : d'.failed = false} (hm : Relay.Move (h.relay hf) (h'.relay hf')) :
    ∃ s', Relation.ReflGen Stream.Step s s' ∧ d'.Sees s' := by
  have he : (h.relay hf).through = s := Stream.ext hs.sent hs.read hs.ended hs.seen
  exact ⟨(h'.relay hf').through, he ▸ hm.step, rfl, rfl, rfl, rfl⟩

end Direction

namespace Connection

variable {c c' : Connection}

/-- What the client and Cassandra see of a connection, where no call has failed. -/
structure Sees (c : Connection) (direct : Duplex Byte) : Prop where
  outbound : c.outbound.failed = false → c.outbound.Sees direct.there
  inbound : c.inbound.failed = false → c.inbound.Sees direct.back

/-- A step that is nothing to one direction and a step of a stream to the other. -/
theorem Sees.there {direct : Duplex Byte} (h : c.Sees direct) (hin : c'.inbound = c.inbound)
    (hout : c'.outbound.failed = false → c.outbound.failed = false ∧ ∀ s, c.outbound.Sees s →
      ∃ s', Relation.ReflGen Stream.Step s s' ∧ c'.outbound.Sees s') :
    ∃ direct', Relation.ReflGen Duplex.Step direct direct' ∧ c'.Sees direct' := by
  obtain ⟨there, back⟩ := direct
  cases hf : c'.outbound.failed with
  | true => exact ⟨⟨there, back⟩, .refl, fun h' => by simp [hf] at h', fun h' => hin ▸ h.inbound (hin ▸ h')⟩
  | false =>
    obtain ⟨hf', hstep⟩ := hout hf
    obtain ⟨s', hs', hsees⟩ := hstep _ (h.outbound hf')
    refine ⟨⟨s', back⟩, ?_, fun _ => hsees, fun h' => hin ▸ h.inbound (hin ▸ h')⟩
    cases hs' with
    | refl => exact .refl
    | single hs' => exact .single (.there back hs')

theorem Sees.back {direct : Duplex Byte} (h : c.Sees direct) (hout : c'.outbound = c.outbound)
    (hin : c'.inbound.failed = false → c.inbound.failed = false ∧ ∀ s, c.inbound.Sees s →
      ∃ s', Relation.ReflGen Stream.Step s s' ∧ c'.inbound.Sees s') :
    ∃ direct', Relation.ReflGen Duplex.Step direct direct' ∧ c'.Sees direct' := by
  obtain ⟨there, back⟩ := direct
  cases hf : c'.inbound.failed with
  | true => exact ⟨⟨there, back⟩, .refl, fun h' => hout ▸ h.outbound (hout ▸ h'), fun h' => by simp [hf] at h'⟩
  | false =>
    obtain ⟨hf', hstep⟩ := hin hf
    obtain ⟨s', hs', hsees⟩ := hstep _ (h.inbound hf')
    refine ⟨⟨there, s'⟩, ?_, fun h' => hout ▸ h.outbound (hout ▸ h'), fun _ => hsees⟩
    cases hs' with
    | refl => exact .refl
    | single hs' => exact .single (.back there hs')

theorem Sees.called {direct : Duplex Byte} (h : c.Sees direct) (hc : c.Inv) (hs : c.Called c') :
    ∃ direct', Relation.ReflGen Duplex.Step direct direct' ∧ c'.Sees direct' := by
  cases hs with
  | thread d hd =>
    refine h.there rfl fun hf' => ?_
    obtain ⟨hf, hmove⟩ := hd.move hc.outbound hf'
    exact ⟨hf, fun s hs => hs.step hmove⟩
  | copy d hd =>
    refine h.back rfl fun hf' => ?_
    obtain ⟨hf, hmove⟩ := hd.move hc.inbound hf'
    exact ⟨hf, fun s hs => hs.step hmove⟩
  | start | started | join | close => exact ⟨direct, .refl, ⟨h.outbound, h.inbound⟩⟩
  | refused => exact ⟨direct, .refl, ⟨fun hf => (by cases hf), fun hf => (by cases hf)⟩⟩
  | closed hh =>
    exact h.there rfl fun hf => ⟨hf, fun s hs => hs.step (hc.outbound.close_move (hc.closing hh) hf)⟩
  | finished hh =>
    exact h.back rfl fun hf => ⟨hf, fun s hs => hs.step (hc.inbound.close_move (hc.closed (.inl hh)).2 hf)⟩

/-- One step of the simulation. -/
theorem Sees.step {room : Room} {direct : Duplex Byte} (h : c.Sees direct) (hc : c.Inv) {e : Event}
    (hs : c.step room e = some c') : ∃ direct', Relation.ReflGen Duplex.Step direct direct' ∧
      c'.Sees direct' := by
  cases e with
  | outbound p =>
    simp only [Connection.step, Option.map_eq_some_iff] at hs
    obtain ⟨d, hd, rfl⟩ := hs
    refine h.there rfl fun hf' => ?_
    have hf : c.outbound.failed = false := Direction.peer_failed hd ▸ hf'
    exact ⟨hf, fun s hs => hs.step (hc.outbound.peer_move hd hf hf')⟩
  | inbound p =>
    simp only [Connection.step, Option.ite_none_right_eq_some, Option.map_eq_some_iff] at hs
    obtain ⟨-, d, hd, rfl⟩ := hs
    refine h.back rfl fun hf' => ?_
    have hf : c.inbound.failed = false := Direction.peer_failed hd ▸ hf'
    exact ⟨hf, fun s hs => hs.step (hc.inbound.peer_move hd hf hf')⟩
  | thread choice | handler choice => exact h.called hc (step_called rfl hs)

end Connection

/-- What holds of a fresh connection and is kept by its steps holds of all that a server has. -/
theorem Server.Reachable.connection {room : Room} {P : Connection → Prop} (hfresh : P .fresh)
    (hstep : ∀ c c' e, P c → c.step room e = some c' → P c') {s : Server} (h : s.Reachable room) :
    ∀ {i : Nat} {c : Connection}, s i = some c → P c := by
  induction h with
  | refl =>
    intro i c hc
    cases hc
  | tail _ hs ih =>
    intro i c hc
    cases hs with
    | accept j _ =>
      by_cases hij : i = j
      · subst hij
        rw [Function.update_self] at hc
        cases hc
        exact hfresh
      · exact ih (by rwa [Function.update_of_ne hij] at hc)
    | connection j e d₀ d₁ hd hd' =>
      by_cases hij : i = j
      · subst hij
        rw [Function.update_self] at hc
        cases hc
        exact hstep d₀ c e (ih hd) hd'
      · exact ih (by rwa [Function.update_of_ne hij] at hc)

theorem Server.Reachable.inv {room : Room} {s : Server} (h : s.Reachable room) {i : Nat} {c : Connection}
    (hc : s i = some c) :
    c.Inv :=
  h.connection .fresh (fun _ _ _ hi hs => hi.step hs) hc

/-- Two ends that are connected directly. -/
def Direct : Duplex Byte → Prop := Relation.ReflTransGen Duplex.Step ⟨.fresh, .fresh⟩

/-- **As if there were no forwarder.** Of every connection, in every reachable state, the client
and Cassandra see what two ends of a direct connection see; of a direction in which a call has
failed they still see, of what was written to it, a beginning. -/
theorem forwarded {room : Room} {s : Server} (h : s.Reachable room) {i : Nat} {c : Connection}
    (hc : s i = some c) :
    (∃ direct, Direct direct ∧ c.Sees direct) ∧
      c.outbound.target.read <+: c.outbound.source.sent ∧ c.inbound.target.read <+: c.inbound.source.sent := by
  have hsees : c.Inv ∧ ∃ direct, Direct direct ∧ c.Sees direct := by
    refine h.connection (P := fun c => c.Inv ∧ ∃ direct, Direct direct ∧ c.Sees direct) ?_ ?_ hc
    · exact ⟨.fresh, _, .refl, ⟨fun _ => ⟨rfl, rfl, rfl, rfl⟩, fun _ => ⟨rfl, rfl, rfl, rfl⟩⟩⟩
    · intro c c' e hi hs
      obtain ⟨hinv, direct, hdirect, hsees⟩ := hi
      obtain ⟨direct', hmove, hsees'⟩ := hsees.step hinv hs
      exact ⟨hinv.step hs, direct', hdirect.trans hmove.to_reflTransGen, hsees'⟩
  have hbeginning (d : Direction) (hd : d.Inv) : d.target.read <+: d.source.sent :=
    d.target.le.trans (hd.relayed.trans d.source.le)
  exact ⟨hsees.2, hbeginning _ hsees.1.outbound, hbeginning _ hsees.1.inbound⟩

/-- A connection after some events. -/
def Connection.run (room : Room) (c : Connection) : List Event → Option Connection
  | [] => some c
  | e :: rest => (c.step room e).bind fun c' => c'.run room rest

/-- A run of one connection is one of the server's. -/
theorem Server.reachable_run {room : Room} : ∀ {events : List Event} {s : Server} {c c' : Connection},
    s.Reachable room → s 0 = some c → c.run room events = some c' →
      ∃ s' : Server, s'.Reachable room ∧ s' 0 = some c' := by
  intro events
  induction events with
  | nil =>
    intro s c c' hs hc hr
    cases hr
    exact ⟨s, hs, hc⟩
  | cons e rest ih =>
    intro s c c' hs hc hr
    obtain ⟨c₁, hstep, hr⟩ := Option.bind_eq_some_iff.1 hr
    exact ih (hs.tail (.connection s 0 e c c₁ hc hstep)) (Function.update_self ..) hr

theorem Server.reachable_fresh {room : Room} {events : List Event} {c : Connection}
    (h : Connection.fresh.run room events = some c) : ∃ s : Server, s.Reachable room ∧ s 0 = some c :=
  reachable_run (.single (.accept _ 0 rfl)) (Function.update_self ..) h

/-- Two bytes are kept for a reader. -/
def sampleRoom : Room := fun unread => 2 - unread

/-- A request on its way, after which both sides have nothing more to send. -/
def sampleRequest : List Event :=
  [.outbound (.write [1, 2, 3]), .handler (.bytes 0), .handler (.bytes 0), .thread (.bytes 2),
    .thread (.bytes 1), .outbound (.read 8), .outbound .finish, .inbound (.write [4]), .inbound .finish]

theorem forwarded_sample : ∃ c, Connection.fresh.run sampleRoom sampleRequest = some c ∧
    c.outbound.target.read = [1] ∧ c.outbound.target.read <+: c.outbound.source.sent := by
  have hrun : (Connection.fresh.run sampleRoom sampleRequest).map (fun c => c.outbound.target.read) = some [1] := by
    decide +kernel
  obtain ⟨c, hc, hread⟩ := Option.map_eq_some_iff.1 hrun
  obtain ⟨s, hs, hsc⟩ := Server.reachable_fresh hc
  exact ⟨c, hc, hread, (forwarded hs hsc).2.1⟩

/-! ## Coming to rest -/

/-- How far a copy is from its end, once nothing is left to pass on. -/
def Copy.rank : Copy → Nat
  | .recv | .sendall _ => 2
  | .shutdown => 1
  | .done => 0

/-- How many calls a copy has left. -/
def Direction.work (d : Direction) : Nat := 2 * d.source.unread.length + d.held.length + d.copy.rank

/-- How far `handle` is from its end. -/
def Handle.rank : Handle → Nat
  | .createConnection => 6
  | .start => 5
  | .copy => 4
  | .join => 3
  | .close => 2
  | .shutdownRequest => 1
  | .finished => 0

/-- How many calls a connection has left, at most. -/
def Connection.work (c : Connection) : Nat := c.outbound.work + c.inbound.work + c.handle.rank

/-- What is sent has been passed on, and so has the end. -/
def Direction.Settled (d : Direction) : Prop :=
  d.failed = false → d.target.sent = d.source.sent ∧ d.target.ended = d.source.ended

/-- A peer goes on: the writer has not ended it, or the reader has not read. -/
def Direction.Waits (d : Direction) : Prop := d.source.ended = false ∨ d.target.unread ≠ []

namespace Direction

variable {d d' : Direction}

theorem Called.work (hd : d.Called d') : d'.work < d.work := by
  cases hd with
  | recv n hcopy hdata =>
    have hne : 0 < (d.source.unread.take n).length := List.length_pos_iff.2 hdata
    simp only [Direction.work, held, hcopy, Copy.rank, Stream.unread_take, List.length_drop, List.length_take,
      List.length_nil] at hne ⊢
    omega
  | atEnd hcopy hend =>
    have hnone : d.source.unread = [] := Stream.unread_eq_nil.2 hend.2
    have hnone' : (d.source.observe hend).unread = [] := hnone
    simp [Direction.work, held, hcopy, Copy.rank, hnone, hnone']
  | sendall rest n hcopy hopen hdata =>
    have hne : 0 < (rest.take n).length := List.length_pos_iff.2 hdata
    have hrank : (Copy.sending (rest.drop n)).rank = 2 := by cases rest.drop n <;> rfl
    simp only [Direction.work, held_sending, hrank, List.length_drop, List.length_take] at hne ⊢
    simp only [held, hcopy, Copy.rank]
    omega
  | shutdown hcopy => simp [Direction.work, held, hcopy, Copy.rank]
  | failed copy hover hcopy hlast =>
    have hheld : held { d with copy := copy, failed := true } = [] := by
      rcases hover with rfl | rfl <;> rfl
    have hrank : copy.rank < d.copy.rank := by
      cases hc : d.copy with
      | recv | sendall => rcases hover with rfl | rfl <;> simp [Copy.rank]
      | shutdown => simp [hlast hc, Copy.rank]
      | done => exact absurd hc hcopy
    simp only [Direction.work, hheld, List.length_nil]
    omega

/-- A copy that cannot go on without a failure is over, or waits for its source, where
there is room for what nobody has read. -/
theorem Inv.blocked (h : d.Inv) {room : Room} (hroom : 0 < room 0) (hread : d.target.unread = [])
    (hd : ∀ n, d.call room (.bytes n) = none) :
    d.copy = .done ∨ d.copy = .recv ∧ d.source.unread = [] ∧ d.source.ended = false := by
  have hone := hd 1
  cases hc : d.copy with
  | recv =>
    right
    simp only [call, hc] at hone
    split at hone
    · next hdata =>
      have hnone : d.source.unread = [] := by simpa using hdata
      refine ⟨rfl, hnone, ?_⟩
      by_contra hended
      simp [Stream.unread_eq_nil.1 hnone, hended] at hone
    · cases hone
  | sendall rest =>
    have hopen : d.target.ended = false := by
      by_contra he
      simpa [hc] using h.ended (by simpa using he)
    have hfree : min 1 (room d.target.unread.length) = 1 := by
      rw [hread, List.length_nil]
      omega
    simp only [call, hc, hopen, hfree] at hone
    cases rest with
    | nil => exact absurd rfl (h.pending [] hc)
    | cons b rest => simp at hone
  | shutdown => simp [call, hc] at hone
  | done => exact .inl rfl

theorem Inv.settled (h : d.Inv)
    (hd : d.copy = .done ∨ d.copy = .recv ∧ d.source.unread = [] ∧ d.source.ended = false) : d.Settled := by
  intro hf
  have hwhole := h.whole hf
  rcases hd with hc | ⟨hc, hnone, hopen⟩
  · obtain ⟨hended, hread⟩ := d.source.whole (h.through hf (.inr hc))
    simp only [held, hc, List.append_nil] at hwhole
    exact ⟨hwhole.symm.trans hread, (h.done hf hc).trans hended.symm⟩
  · simp only [held, hc, List.append_nil] at hwhole
    refine ⟨hwhole.symm.trans (Stream.unread_eq_nil.1 hnone), ?_⟩
    rw [hopen]
    by_contra he
    simpa [hc] using h.ended (by simpa using he)

theorem Called.source (hd : d.Called d') :
    d'.source.sent = d.source.sent ∧ d'.source.ended = d.source.ended := by
  cases hd <;> exact ⟨rfl, rfl⟩

end Direction

namespace Connection

variable {c c' : Connection}

/-- The peers have written no more, and ended nothing. -/
structure Quiet (c c' : Connection) : Prop where
  outbound : c'.outbound.source.sent = c.outbound.source.sent ∧
    c'.outbound.source.ended = c.outbound.source.ended
  inbound : c'.inbound.source.sent = c.inbound.source.sent ∧ c'.inbound.source.ended = c.inbound.source.ended

theorem Quiet.trans {c'' : Connection} (h : c.Quiet c') (h' : c'.Quiet c'') : c.Quiet c'' where
  outbound := ⟨h'.outbound.1.trans h.outbound.1, h'.outbound.2.trans h.outbound.2⟩
  inbound := ⟨h'.inbound.1.trans h.inbound.1, h'.inbound.2.trans h.inbound.2⟩

/-- A call of the forwarder's leaves less to do. -/
theorem Called.work (hs : c.Called c') : c'.work < c.work ∧ c.Quiet c' := by
  cases hs with
  | thread d hd =>
    refine ⟨?_, hd.source, rfl, rfl⟩
    have hwork := hd.work
    simp only [Connection.work]
    omega
  | copy d hd =>
    refine ⟨?_, ⟨rfl, rfl⟩, hd.source⟩
    have hwork := hd.work
    simp only [Connection.work]
    omega
  | refused hh =>
    refine ⟨?_, ⟨rfl, rfl⟩, rfl, rfl⟩
    simp only [Connection.work, Direction.work, Direction.refuse, Direction.held, Copy.rank, Handle.rank, hh,
      List.length_nil]
    omega
  | closed hh | finished hh =>
    refine ⟨?_, ⟨rfl, rfl⟩, rfl, rfl⟩
    simp [Connection.work, Direction.work, Direction.held, Direction.close, Handle.rank, hh]
  | start hh | started hh | join hh | close hh =>
    exact ⟨by simp [Connection.work, Handle.rank, hh], ⟨rfl, rfl⟩, rfl, rfl⟩

theorem Inv.run (h : c.Inv) {room : Room} : ∀ {events : List Event}, (∀ e ∈ events, e.own = true) →
    c.run room events = some c' → events.length + c'.work ≤ c.work ∧ c.Quiet c' ∧ c'.Inv := by
  intro events
  induction events generalizing c with
  | nil =>
    intro _ hr
    cases hr
    exact ⟨by simp, ⟨⟨rfl, rfl⟩, rfl, rfl⟩, h⟩
  | cons e rest ih =>
    intro hown hr
    obtain ⟨c₁, hs, hr⟩ := Option.bind_eq_some_iff.1 hr
    obtain ⟨hwork, hquiet⟩ := (step_called (hown e (by simp)) hs).work
    obtain ⟨hlength, hquiet', hinv⟩ := ih (h.step hs) (fun e' he' => hown e' (by simp [he'])) hr
    refine ⟨?_, hquiet.trans hquiet', hinv⟩
    simp only [List.length_cons]
    omega

theorem Inv.started (h : c.Inv) (hh : c.handle = .copy ∨ c.handle = .join) : c.started = true := by
  have hrefused : c.refused = false := by
    by_contra hr
    rcases h.refused (by simpa using hr) with hf | hf <;> simp [hf] at hh
  rcases hh with hh | hh <;> simp [Connection.started, connected, hrefused, hh]

/-- A connection at rest: what is sent is passed on as far as it is read, and it is not over only
while a peer goes on. -/
theorem Inv.atRest (h : c.Inv) {room : Room} (hroom : 0 < room 0)
    (hthread : ∀ n, c.step room (.thread (.bytes n)) = none)
    (hhandler : ∀ n, c.step room (.handler (.bytes n)) = none) :
    (c.outbound.target.unread = [] → c.outbound.Settled) ∧ (c.inbound.target.unread = [] → c.inbound.Settled) ∧
      (c.handle = .finished ∨ c.outbound.Waits ∨ c.inbound.Waits) := by
  have hone := hhandler 1
  have hblocked (hh : c.handle = .copy ∨ c.handle = .join) (hread : c.outbound.target.unread = []) :=
    h.outbound.blocked hroom hread fun n => by simpa [Connection.step, h.started hh] using hthread n
  cases hh : c.handle with
  | createConnection | start | close | shutdownRequest => simp [Connection.step, hh] at hone
  | copy =>
    have hrunning : c.inbound.copy ≠ .done := by
      intro hd
      simp [Connection.step, hh, hd] at hone
    have hin (hread : c.inbound.target.unread = []) := h.inbound.blocked hroom hread fun n => by
      simpa [Connection.step, hh, hrunning] using hhandler n
    refine ⟨fun hread => h.outbound.settled (hblocked (.inl hh) hread),
      fun hread => h.inbound.settled (hin hread),
      .inr (.inr ?_)⟩
    by_cases hread : c.inbound.target.unread = []
    · exact .inl ((hin hread).resolve_left hrunning).2.2
    · exact .inr hread
  | join =>
    have hrunning : c.outbound.copy ≠ .done := by
      intro hd
      simp [Connection.step, hh, hd] at hone
    refine ⟨fun hread => h.outbound.settled (hblocked (.inr hh) hread),
      fun _ => h.inbound.settled (.inl (h.joined (.inl hh))), .inr (.inl ?_)⟩
    by_cases hread : c.outbound.target.unread = []
    · exact .inl ((hblocked (.inr hh) hread).resolve_left hrunning).2.2
    · exact .inr hread
  | finished =>
    obtain ⟨hout, hin⟩ := h.closed (.inr hh)
    exact ⟨fun _ => h.outbound.settled (.inl hout), fun _ => h.inbound.settled (.inl hin), .inl rfl⟩

end Connection

/-- **Coming to rest.** Whatever a connection has been through, its threads make only so many more
calls by themselves; and where they can go on with nothing but a failure, what each side has sent
is passed on, its end too, unless its reader leaves unread what it has got; and once both have ended
and read the connection is closed. -/
theorem settles {room : Room} (hroom : 0 < room 0) {s : Server} (h : s.Reachable room) {i : Nat}
    {c c' : Connection} (hc : s i = some c) {events : List Event} (hown : ∀ e ∈ events, e.own = true)
    (hrun : c.run room events = some c') :
    events.length ≤ c.work ∧ c.Quiet c' ∧
      ((∀ n, c'.step room (.thread (.bytes n)) = none) → (∀ n, c'.step room (.handler (.bytes n)) = none) →
        (c'.outbound.target.unread = [] → c'.outbound.Settled) ∧
          (c'.inbound.target.unread = [] → c'.inbound.Settled) ∧
            (c.outbound.source.ended = true → c.inbound.source.ended = true →
              c'.outbound.target.unread = [] → c'.inbound.target.unread = [] → c'.handle = .finished)) := by
  obtain ⟨hlength, hquiet, hinv⟩ := (h.inv hc).run hown hrun
  refine ⟨by omega, hquiet, fun hthread hhandler => ?_⟩
  obtain ⟨hout, hin, hover⟩ := hinv.atRest hroom hthread hhandler
  refine ⟨hout, hin, fun heout hein hrout hrin => ?_⟩
  rcases hover with hf | (hopen | hunread) | (hopen | hunread)
  · exact hf
  · rw [hquiet.outbound.2, heout] at hopen
    cases hopen
  · exact absurd hrout hunread
  · rw [hquiet.inbound.2, hein] at hopen
    cases hopen
  · exact absurd hrin hunread

/-- What the forwarder makes of it. -/
def sampleRest : List Event :=
  List.replicate 5 (.thread (.bytes 8)) ++ List.replicate 8 (.handler (.bytes 8))

theorem settles_sample : ∃ c c', Connection.fresh.run sampleRoom sampleRequest = some c ∧
    c.run sampleRoom sampleRest = some c' ∧ c'.handle = .finished ∧ c'.outbound.target.sent = [1, 2, 3] ∧
      sampleRest.length ≤ c.work := by
  have hrun : ((Connection.fresh.run sampleRoom sampleRequest).bind fun c => (c.run sampleRoom sampleRest).map
      fun c' => (c'.handle, c'.outbound.target.sent)) = some (.finished, [1, 2, 3]) := by decide +kernel
  obtain ⟨c, hc, hrun⟩ := Option.bind_eq_some_iff.1 hrun
  obtain ⟨c', hc', hresult⟩ := Option.map_eq_some_iff.1 hrun
  simp only [Prod.mk.injEq] at hresult
  obtain ⟨s, hs, hsc⟩ := Server.reachable_fresh hc
  exact ⟨c, c', hc, hc', hresult.1, hresult.2, (settles (by decide) hs hsc (by decide) hc').1⟩

/-- A reader that has not read, and the copy that waits for it. -/
def sampleStuck : List Event :=
  [.outbound (.write [1, 2, 3]), .handler (.bytes 0), .handler (.bytes 0), .thread (.bytes 8),
    .thread (.bytes 8)]

example : ((Connection.fresh.run sampleRoom sampleStuck).map fun c =>
    (c.step sampleRoom (.thread (.bytes 8))).isNone && c.outbound.target.unread == [1, 2]) = some true := by
  decide +kernel

end CartyxInfra.Local.CqlProxy
