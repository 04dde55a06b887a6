/-
`cql-proxy.py`: a connection to the forwarder, which copies each direction in
a thread of its own.

A `Direction` is what `copy(source, target)` reads and writes, with the state
of the loop. A call comes back with some bytes, or with an `OSError`; when it
does is up to the kernel, which keeps only so much for a reader. The client and
Cassandra write, end and read their directions in between as they like.
-/
import CartyxInfra.Lib.Stream

namespace CartyxInfra.Local.CqlProxy

/-- A byte of a connection. -/
abbrev Byte := UInt8

/-- Where `copy` is. -/
inductive Copy
  /-- At `source.recv(65536)`. -/
  | recv
  /-- In `target.sendall(data)`, with what is left of the data. -/
  | sendall (rest : List Byte)
  /-- In the `finally` block, at `target.shutdown(socket.SHUT_WR)`. -/
  | shutdown
  | done
  deriving DecidableEq

/-- In `sendall` as long as anything is left, and then back at `recv`. -/
def Copy.sending : List Byte → Copy
  | [] => .recv
  | rest => .sendall rest

/-- What a call is met with: at most so many bytes, or an `OSError`. -/
inductive Choice
  | bytes (n : Nat)
  | error

/-- One `copy`, between the sockets it is given. -/
structure Direction where
  source : Stream Byte
  target : Stream Byte
  copy : Copy
  /-- Whether a call for it has raised an `OSError`. -/
  failed : Bool

/-- How much more the kernel takes of a direction of which so much is unread. -/
abbrev Room := Nat → Nat

/-- One call of `copy`; none where it blocks. -/
def Direction.call (room : Room) (d : Direction) (choice : Choice) : Option Direction :=
  match d.copy, choice with
  | .recv, .bytes n =>
    match d.source.unread.take (min n 65536) with
    | [] =>
      -- `recv` returns no data at the end of the stream only.
      if h : d.source.ended = true ∧ d.source.read = d.source.sent then
        some { d with source := d.source.observe h, copy := .shutdown }
      else none
    | data => some { d with source := d.source.take (min n 65536), copy := .sendall data }
  | .sendall rest, .bytes n =>
    if h : d.target.ended = false then
      -- What is left blocks where the reader has not made room for any of it.
      let n := min n (room d.target.unread.length)
      match rest.take n with
      | [] => none
      | data => some { d with target := d.target.write data h, copy := .sending (rest.drop n) }
    else some { d with copy := .shutdown, failed := true }
  | .shutdown, .bytes _ => some { d with target := d.target.finish, copy := .done }
  | .recv, .error | .sendall _, .error => some { d with copy := .shutdown, failed := true }
  | .shutdown, .error => some { d with copy := .done, failed := true }
  | .done, _ => none

/-- What the ends of a direction do. -/
inductive Peer
  | write (data : List Byte)
  | finish
  | read (n : Nat)
  | readEnd

/-- The peer is the one that sends. -/
def Peer.writes : Peer → Bool
  | .write _ | .finish => true
  | .read _ | .readEnd => false

/-- What a peer does, where it can. -/
def Direction.peer (d : Direction) : Peer → Option Direction
  | .write data => if h : d.source.ended = false then some { d with source := d.source.write data h } else none
  | .finish => some { d with source := d.source.finish }
  | .read n => some { d with target := d.target.take n }
  | .readEnd =>
    if h : d.target.ended = true ∧ d.target.read = d.target.sent then
      some { d with target := d.target.observe h }
    else none

/-- Where `handle` is, and the server after it. -/
inductive Handle
  /-- At `socket.create_connection(UPSTREAM, timeout=5)`. -/
  | createConnection
  /-- At `outbound.start()`. -/
  | start
  /-- In `copy(upstream, self.request)`. -/
  | copy
  /-- At `outbound.join()`. -/
  | join
  /-- At `upstream.close()`. -/
  | close
  /-- `handle` has returned: `shutdown_request` ends the request's socket and closes it. -/
  | shutdownRequest
  | finished
  deriving DecidableEq

/-- A connection that a client has made to the forwarder. -/
structure Connection where
  handle : Handle
  /-- `copy(self.request, upstream)`. -/
  outbound : Direction
  /-- `copy(upstream, self.request)`. -/
  inbound : Direction
  /-- Whether `create_connection` has raised an `OSError`. -/
  refused : Bool

/-- A direction before its copy. -/
def Direction.fresh : Direction := ⟨.fresh, .fresh, .recv, false⟩

/-- A connection that has just been accepted. -/
def Connection.fresh : Connection := ⟨.createConnection, .fresh, .fresh, false⟩

/-- Whether there is a connection to Cassandra. -/
def Connection.connected (c : Connection) : Bool := !c.refused && c.handle != .createConnection

/-- Whether the thread runs. -/
def Connection.started (c : Connection) : Bool := c.connected && c.handle != .start

/-- A direction whose socket is closed: its stream ends there. -/
def Direction.close (d : Direction) : Direction := { d with target := d.target.finish }

/-- A direction that is never copied. -/
def Direction.refuse (d : Direction) : Direction := { d with copy := .done, failed := true }

/-- What happens to a connection. -/
inductive Event
  /-- The client writes, Cassandra reads. -/
  | outbound (peer : Peer)
  /-- Cassandra writes, the client reads. -/
  | inbound (peer : Peer)
  /-- A call of the thread. -/
  | thread (choice : Choice)
  /-- A call of the handler's. -/
  | handler (choice : Choice)

/-- What an event does, where it is possible. -/
def Connection.step (room : Room) (c : Connection) : Event → Option Connection
  | .outbound peer => (c.outbound.peer peer).map fun d => { c with outbound := d }
  | .inbound peer =>
    if c.connected || !peer.writes then (c.inbound.peer peer).map fun d => { c with inbound := d } else none
  | .thread choice =>
    if c.started then (c.outbound.call room choice).map fun d => { c with outbound := d } else none
  | .handler choice =>
    match c.handle, choice with
    | .createConnection, .bytes _ => some { c with handle := .start }
    | .createConnection, .error =>
      some ⟨.shutdownRequest, c.outbound.refuse, c.inbound.refuse, true⟩
    | .start, _ => some { c with handle := .copy }
    | .copy, choice =>
      if c.inbound.copy = .done then some { c with handle := .join }
      else (c.inbound.call room choice).map fun d => { c with inbound := d }
    | .join, _ => if c.outbound.copy = .done then some { c with handle := .close } else none
    | .close, _ => some { c with handle := .shutdownRequest, outbound := c.outbound.close }
    | .shutdownRequest, _ => some { c with handle := .finished, inbound := c.inbound.close }
    | .finished, _ => none

/-- The calls of the forwarder's threads. -/
def Event.own : Event → Bool
  | .thread _ | .handler _ => true
  | .outbound _ | .inbound _ => false

/-- The server's connections, each in threads of its own. -/
abbrev Server := Nat → Option Connection

/-- A connection comes, or something happens to one. -/
inductive Server.Step (room : Room) : Server → Server → Prop
  | accept (s : Server) (i : Nat) (h : s i = none) : Step room s (Function.update s i (some .fresh))
  | connection (s : Server) (i : Nat) (e : Event) (c c' : Connection) (h : s i = some c)
      (hc : c.step room e = some c') : Step room s (Function.update s i (some c'))

/-- The server is in this state some time after its start. -/
def Server.Reachable (room : Room) : Server → Prop := Relation.ReflTransGen (Server.Step room) fun _ => none

/-! ## One direction -/

/-- What one call has done. -/
inductive Direction.Called (d : Direction) : Direction → Prop
  | recv (n : Nat) (hcopy : d.copy = .recv) (hdata : d.source.unread.take n ≠ []) :
      Called d { d with source := d.source.take n, copy := .sendall (d.source.unread.take n) }
  | atEnd (hcopy : d.copy = .recv) (h : d.source.ended = true ∧ d.source.read = d.source.sent) :
      Called d { d with source := d.source.observe h, copy := .shutdown }
  | sendall (rest : List Byte) (n : Nat) (hcopy : d.copy = .sendall rest) (h : d.target.ended = false)
      (hdata : rest.take n ≠ []) :
      Called d { d with target := d.target.write (rest.take n) h, copy := .sending (rest.drop n) }
  | shutdown (hcopy : d.copy = .shutdown) : Called d { d with target := d.target.finish, copy := .done }
  | failed (copy : Copy) (hover : copy = .shutdown ∨ copy = .done) (hcopy : d.copy ≠ .done)
      (hlast : d.copy = .shutdown → copy = .done) : Called d { d with copy := copy, failed := true }

/-- What has been received and not yet sent. -/
def Direction.held (d : Direction) : List Byte :=
  match d.copy with
  | .sendall rest => rest
  | _ => []

/-- What is sent has been received, in order, and without a failure it is all
of it; the end is passed on after everything else. -/
structure Direction.Inv (d : Direction) : Prop where
  relayed : d.target.sent <+: d.source.read
  whole : d.failed = false → d.source.read = d.target.sent ++ d.held
  stopped : d.failed = true → d.copy = .shutdown ∨ d.copy = .done
  through : d.failed = false → d.copy = .shutdown ∨ d.copy = .done → d.source.seen = true
  ended : d.target.ended = true → d.copy = .done
  done : d.failed = false → d.copy = .done → d.target.ended = true
  pending : ∀ rest, d.copy = .sendall rest → rest ≠ []

@[simp] theorem held_sending (source target : Stream Byte) (rest : List Byte) (failed : Bool) :
    Direction.held ⟨source, target, .sending rest, failed⟩ = rest := by
  cases rest <;> rfl

theorem sending_ne_shutdown (rest : List Byte) : Copy.sending rest ≠ .shutdown := by
  cases rest <;> simp [Copy.sending]

theorem sending_ne_done (rest : List Byte) : Copy.sending rest ≠ .done := by
  cases rest <;> simp [Copy.sending]

theorem sending_eq_sendall {rest rest' : List Byte} (h : Copy.sending rest = .sendall rest') : rest' ≠ [] := by
  cases rest with
  | nil => simp [Copy.sending] at h
  | cons b rest =>
    simp only [Copy.sending, Copy.sendall.injEq] at h
    simp [← h]

namespace Direction

variable {d d' : Direction}

theorem call_called {room : Room} {choice : Choice} (h : d.call room choice = some d') : d.Called d' := by
  obtain ⟨source, target, copy, failed⟩ := d
  cases copy with
  | recv =>
    cases choice with
    | bytes n =>
      simp only [call] at h
      split at h
      · split at h
        · next hend =>
          cases h
          exact .atEnd rfl hend
        · cases h
      · next hdata =>
        cases h
        exact .recv _ rfl hdata
    | error =>
      cases h
      exact .failed .shutdown (.inl rfl) (by simp) (by simp)
  | sendall rest =>
    cases choice with
    | bytes n =>
      simp only [call] at h
      split at h
      · next hopen =>
        split at h
        · cases h
        · next hdata =>
          cases h
          exact .sendall rest _ rfl hopen hdata
      · cases h
        exact .failed .shutdown (.inl rfl) (by simp) (by simp)
    | error =>
      cases h
      exact .failed .shutdown (.inl rfl) (by simp) (by simp)
  | shutdown =>
    cases choice with
    | bytes n =>
      cases h
      exact .shutdown rfl
    | error =>
      cases h
      exact .failed .done (.inr rfl) (by simp) (by simp)
  | done => cases choice <;> cases h

theorem Inv.fresh : Direction.fresh.Inv where
  relayed := List.prefix_rfl
  whole _ := rfl
  stopped h := by simp [Direction.fresh] at h
  through _ h := by simp [Direction.fresh] at h
  ended h := by simp [Direction.fresh, Stream.fresh] at h
  done _ h := by simp [Direction.fresh] at h
  pending _ h := by simp [Direction.fresh] at h

/-- The ends of a direction without a failure are those of a stream. -/
def Inv.relay (h : d.Inv) (hf : d.failed = false) : Relay Byte where
  source := d.source
  target := d.target
  held := d.held
  relayed := h.whole hf
  ended he := ⟨h.through hf (.inr (h.ended he)), by simp [held, h.ended he]⟩

theorem Inv.unfailed (h : d.Inv) (hs : d.copy ≠ .shutdown) (hd : d.copy ≠ .done) : d.failed = false := by
  cases hf : d.failed with
  | false => rfl
  | true => simpa [hs, hd] using h.stopped hf

theorem Called.inv (h : d.Inv) (hd : d.Called d') : d'.Inv := by
  cases hd with
  | recv n hcopy hdata =>
    have hf := h.unfailed (by simp [hcopy]) (by simp [hcopy])
    have hwhole := h.whole hf
    simp only [held, hcopy, List.append_nil] at hwhole
    exact {
      relayed := h.relayed.trans (List.prefix_append ..)
      whole _ := by simp [held, hwhole]
      stopped hf' := by simp [hf] at hf'
      through _ ho := by simp at ho
      ended he := by simpa [hcopy] using h.ended he
      done _ ho := by simp at ho
      pending rest hr := by
        simp only [Copy.sendall.injEq] at hr
        rwa [← hr] }
  | atEnd hcopy hend =>
    have hf := h.unfailed (by simp [hcopy]) (by simp [hcopy])
    have hwhole := h.whole hf
    simp only [held, hcopy, List.append_nil] at hwhole
    exact {
      relayed := h.relayed
      whole _ := by simp [held, hwhole]
      stopped hf' := by simp [hf] at hf'
      through _ _ := rfl
      ended he := by simpa [hcopy] using h.ended he
      done _ ho := by simp at ho
      pending rest hr := by simp at hr }
  | sendall rest n hcopy hopen hdata =>
    have hf := h.unfailed (by simp [hcopy]) (by simp [hcopy])
    have hwhole := h.whole hf
    simp only [held, hcopy] at hwhole
    have hread : d.source.read = (d.target.sent ++ rest.take n) ++ rest.drop n := by
      rw [hwhole, List.append_assoc, List.take_append_drop]
    exact {
      relayed := ⟨rest.drop n, hread.symm⟩
      whole _ := by simpa using hread
      stopped hf' := by simp [hf] at hf'
      through _ ho := absurd ho (by simp [sending_ne_shutdown, sending_ne_done])
      ended he := by simp [hopen] at he
      done _ ho := absurd ho (sending_ne_done _)
      pending rest' hr := sending_eq_sendall hr }
  | shutdown hcopy =>
    exact {
      relayed := h.relayed
      whole hf := by simpa [held, hcopy] using h.whole hf
      stopped _ := .inr rfl
      through hf _ := h.through hf (.inl hcopy)
      ended _ := rfl
      done _ _ := rfl
      pending rest hr := by simp at hr }
  | failed copy hover hcopy hlast =>
    exact {
      relayed := h.relayed
      whole hf := by simp at hf
      stopped _ := hover
      through hf _ := by simp at hf
      ended he := absurd (h.ended he) hcopy
      done hf _ := by simp at hf
      pending rest hr := by
        simp only at hr
        rcases hover with rfl | rfl <;> cases hr }

/-- A call that does not fail moves the relay. -/
theorem Called.move (h : d.Inv) (hd : d.Called d') (hf' : d'.failed = false) :
    ∃ hf : d.failed = false, Relay.Move (h.relay hf) ((hd.inv h).relay hf') := by
  cases hd with
  | recv | atEnd | shutdown => exact ⟨hf', .inside rfl rfl rfl rfl⟩
  | sendall => exact ⟨hf', .inside rfl rfl rfl rfl⟩
  | failed => cases hf'

theorem Inv.peer (h : d.Inv) {p : Peer} (hd : d.peer p = some d') : d'.Inv := by
  cases p with
  | write data =>
    simp only [Direction.peer, Option.dite_none_right_eq_some, Option.some.injEq] at hd
    obtain ⟨hopen, rfl⟩ := hd
    exact { h with }
  | finish =>
    cases hd
    exact { h with }
  | read n =>
    cases hd
    exact { h with }
  | readEnd =>
    simp only [Direction.peer, Option.dite_none_right_eq_some, Option.some.injEq] at hd
    obtain ⟨hend, rfl⟩ := hd
    exact { h with }

theorem peer_failed {p : Peer} (hd : d.peer p = some d') : d'.failed = d.failed := by
  cases p <;> simp only [peer, Option.dite_none_right_eq_some, Option.some.injEq] at hd
  · obtain ⟨_, rfl⟩ := hd; rfl
  · subst hd; rfl
  · subst hd; rfl
  · obtain ⟨_, rfl⟩ := hd; rfl

theorem Inv.peer_move (h : d.Inv) {p : Peer} (hd : d.peer p = some d') (hf : d.failed = false)
    (hf' : d'.failed = false) : Relay.Move (h.relay hf) ((h.peer hd).relay hf') := by
  cases p with
  | write data =>
    simp only [Direction.peer, Option.dite_none_right_eq_some, Option.some.injEq] at hd
    obtain ⟨hopen, rfl⟩ := hd
    exact .write data hopen rfl rfl
  | finish =>
    cases hd
    exact .finish rfl rfl
  | read n =>
    cases hd
    exact .take n rfl rfl
  | readEnd =>
    simp only [Direction.peer, Option.dite_none_right_eq_some, Option.some.injEq] at hd
    obtain ⟨hend, rfl⟩ := hd
    exact .observe hend rfl rfl

theorem peer_copy {p : Peer} (hd : d.peer p = some d') : d'.copy = d.copy := by
  cases p <;> simp only [peer, Option.dite_none_right_eq_some, Option.some.injEq] at hd
  · obtain ⟨_, rfl⟩ := hd; rfl
  · subst hd; rfl
  · subst hd; rfl
  · obtain ⟨_, rfl⟩ := hd; rfl

theorem Called.running (hd : d.Called d') : d.copy ≠ .done := by
  cases hd <;> simp_all

theorem Inv.refuse (h : d.Inv) : d.refuse.Inv where
  relayed := h.relayed
  whole hf := by simp [Direction.refuse] at hf
  stopped _ := .inr rfl
  through hf _ := by simp [Direction.refuse] at hf
  ended _ := rfl
  done hf _ := by simp [Direction.refuse] at hf
  pending rest hr := by simp [Direction.refuse] at hr

/-- Closing a socket after its copy adds nothing to it. -/
theorem Inv.close (h : d.Inv) (hd : d.copy = .done) : d.close.Inv :=
  { h with
    ended := fun _ => hd
    done := fun _ _ => rfl }

theorem Inv.close_move (h : d.Inv) (hd : d.copy = .done) (hf : d.failed = false) :
    Relay.Move (h.relay hf) ((h.close hd).relay hf) := .inside rfl rfl rfl rfl

end Direction

/-! ## A connection -/

/-- Both directions, and a socket is closed only after both are over. -/
structure Connection.Inv (c : Connection) : Prop where
  outbound : c.outbound.Inv
  inbound : c.inbound.Inv
  joined : c.handle = .join ∨ c.handle = .close → c.inbound.copy = .done
  closing : c.handle = .close → c.outbound.copy = .done
  closed : c.handle = .shutdownRequest ∨ c.handle = .finished → c.outbound.copy = .done ∧ c.inbound.copy = .done
  refused : c.refused = true → c.handle = .shutdownRequest ∨ c.handle = .finished

namespace Connection

variable {c c' : Connection}

theorem Inv.fresh : Connection.fresh.Inv where
  outbound := .fresh
  inbound := .fresh
  joined h := by simp [Connection.fresh] at h
  closing h := by simp [Connection.fresh] at h
  closed h := by simp [Connection.fresh] at h
  refused h := by simp [Connection.fresh] at h

/-- What a call of the forwarder's is: one of the copies', or the handler's own. -/
inductive Called (c : Connection) : Connection → Prop
  | thread (d : Direction) (hd : c.outbound.Called d)
    (hs : c.started = true) : Called c { c with outbound := d }
  | copy (d : Direction) (hd : c.inbound.Called d) (hh : c.handle = .copy) : Called c { c with inbound := d }
  | start (hh : c.handle = .createConnection) : Called c { c with handle := .start }
  | refused (hh : c.handle = .createConnection) :
      Called c ⟨.shutdownRequest, c.outbound.refuse, c.inbound.refuse, true⟩
  | started (hh : c.handle = .start) : Called c { c with handle := .copy }
  | join (hh : c.handle = .copy) (hd : c.inbound.copy = .done) : Called c { c with handle := .join }
  | close (hh : c.handle = .join) (hd : c.outbound.copy = .done) : Called c { c with handle := .close }
  | closed (hh : c.handle = .close) : Called c { c with handle := .shutdownRequest, outbound := c.outbound.close }
  | finished (hh : c.handle = .shutdownRequest) :
      Called c { c with handle := .finished, inbound := c.inbound.close }

theorem step_called {room : Room} {e : Event} (he : e.own = true) (h : c.step room e = some c') :
    c.Called c' := by
  cases e with
  | outbound | inbound => cases he
  | thread choice =>
    simp only [step, Option.ite_none_right_eq_some, Option.map_eq_some_iff] at h
    obtain ⟨hs, d, hd, rfl⟩ := h
    exact .thread d (Direction.call_called hd) hs
  | handler choice =>
    obtain ⟨handle, outbound, inbound, refused⟩ := c
    cases handle with
    | createConnection =>
      cases choice with
      | bytes n =>
        cases h
        exact .start rfl
      | error =>
        cases h
        exact .refused rfl
    | start =>
      cases h
      exact .started rfl
    | copy =>
      simp only [step] at h
      split at h
      · next hd =>
        cases h
        exact .join rfl hd
      · obtain ⟨d, hd, rfl⟩ := Option.map_eq_some_iff.1 h
        exact .copy d (Direction.call_called hd) rfl
    | join =>
      simp only [step, Option.ite_none_right_eq_some, Option.some.injEq] at h
      obtain ⟨hd, rfl⟩ := h
      exact .close rfl hd
    | close =>
      cases h
      exact .closed rfl
    | shutdownRequest =>
      cases h
      exact .finished rfl
    | finished => cases h

theorem Inv.called (h : c.Inv) (hs : c.Called c') : c'.Inv := by
  have hconnected : c.handle ≠ .shutdownRequest → c.handle ≠ .finished → c.refused ≠ true :=
    fun hne hne' hr => (h.refused hr).elim hne hne'
  cases hs with
  | thread d hd hs =>
    exact ⟨hd.inv h.outbound, h.inbound, h.joined, fun hh => absurd (h.closing hh) hd.running,
      fun hh => absurd (h.closed hh).1 hd.running, h.refused⟩
  | copy d hd hh =>
    exact ⟨h.outbound, hd.inv h.inbound, by simp [hh], by simp [hh], by simp [hh],
      fun hr => absurd hr (hconnected (by simp [hh]) (by simp [hh]))⟩
  | start hh | started hh =>
    exact ⟨h.outbound, h.inbound, by simp, by simp, by simp,
      fun hr => absurd hr (hconnected (by simp [hh]) (by simp [hh]))⟩
  | refused hh =>
    exact ⟨h.outbound.refuse, h.inbound.refuse, by simp, by simp, fun _ => ⟨rfl, rfl⟩, fun _ => .inl rfl⟩
  | join hh hd =>
    exact ⟨h.outbound, h.inbound, fun _ => hd, by simp, by simp,
      fun hr => absurd hr (hconnected (by simp [hh]) (by simp [hh]))⟩
  | close hh hd =>
    exact ⟨h.outbound, h.inbound, fun _ => h.joined (.inl hh), fun _ => hd, by simp,
      fun hr => absurd hr (hconnected (by simp [hh]) (by simp [hh]))⟩
  | closed hh =>
    have hd := h.closing hh
    exact ⟨h.outbound.close hd, h.inbound, by simp, by simp, fun _ => ⟨hd, h.joined (.inr hh)⟩,
      fun _ => .inl rfl⟩
  | finished hh =>
    obtain ⟨hout, hin⟩ := h.closed (.inl hh)
    exact ⟨h.outbound, h.inbound.close hin, by simp, by simp, fun _ => ⟨hout, hin⟩, fun _ => .inr rfl⟩

theorem Inv.step (h : c.Inv) {room : Room} {e : Event} (hs : c.step room e = some c') : c'.Inv := by
  cases e with
  | outbound p =>
    simp only [Connection.step, Option.map_eq_some_iff] at hs
    obtain ⟨d, hd, rfl⟩ := hs
    have hcopy := Direction.peer_copy hd
    exact ⟨h.outbound.peer hd, h.inbound, h.joined, fun hh => hcopy ▸ h.closing hh,
      fun hh => hcopy ▸ h.closed hh,
      h.refused⟩
  | inbound p =>
    simp only [Connection.step, Option.ite_none_right_eq_some, Option.map_eq_some_iff] at hs
    obtain ⟨-, d, hd, rfl⟩ := hs
    have hcopy := Direction.peer_copy hd
    exact ⟨h.outbound, h.inbound.peer hd, fun hh => hcopy ▸ h.joined hh, h.closing,
      fun hh => hcopy ▸ h.closed hh,
      h.refused⟩
  | thread choice | handler choice => exact h.called (step_called rfl hs)

end Connection

end CartyxInfra.Local.CqlProxy
