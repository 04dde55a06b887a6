/-
Byte streams, and what passes one on.

A `Stream` is one direction of a connection: what its writer has written, what
its reader has read, and whether each is through with it. A relay reads one
stream and writes another; `Relay.through` is what its two ends see of the
two, which is a stream again. `Relay.Move` is what a relay may do, and
`Move.step`: seen from its ends, it is a step of one stream or nothing at all.
-/
import Mathlib.Data.List.Infix
import Mathlib.Logic.Relation
import Mathlib.Tactic.Simps.Basic

namespace CartyxInfra

/-- One direction of a connection. -/
structure Stream (α : Type) where
  sent : List α
  read : List α
  /-- Whether the writer has ended it. -/
  ended : Bool
  /-- Whether the reader has been told that it ended. -/
  seen : Bool
  le : read <+: sent
  whole : seen = true → ended = true ∧ read = sent

namespace Stream

variable {α : Type} {s t : Stream α}

theorem ext (hsent : s.sent = t.sent) (hread : s.read = t.read) (hended : s.ended = t.ended)
    (hseen : s.seen = t.seen) : s = t := by
  cases s
  cases t
  subst hsent hread hended hseen
  rfl

/-- A stream nobody has used. -/
def fresh : Stream α := ⟨[], [], false, false, List.prefix_rfl, fun h => by cases h⟩

/-- What has not been read. -/
def unread (s : Stream α) : List α := s.sent.drop s.read.length

theorem read_unread (s : Stream α) : s.read ++ s.unread = s.sent := by
  obtain ⟨rest, hrest⟩ := s.le
  rw [unread, ← hrest, List.drop_left]

theorem unread_eq_nil : s.unread = [] ↔ s.read = s.sent := by
  constructor
  · intro h
    have := s.read_unread
    rwa [h, List.append_nil] at this
  · intro h
    simp [unread, h]

/-- More is sent. -/
@[simps] def write (s : Stream α) (data : List α) (h : s.ended = false) : Stream α where
  sent := s.sent ++ data
  read := s.read
  ended := s.ended
  seen := s.seen
  le := s.le.trans (List.prefix_append ..)
  whole hs := by rw [(s.whole hs).1] at h; cases h

/-- Nothing more will be sent. -/
@[simps] def finish (s : Stream α) : Stream α where
  sent := s.sent
  read := s.read
  ended := true
  seen := s.seen
  le := s.le
  whole hs := ⟨rfl, (s.whole hs).2⟩

/-- The reader reads up to `n` items. -/
@[simps] def take (s : Stream α) (n : Nat) : Stream α where
  sent := s.sent
  read := s.read ++ s.unread.take n
  ended := s.ended
  seen := s.seen
  le := by
    have := (List.prefix_append_right_inj s.read).2 (List.take_prefix n s.unread)
    rwa [read_unread] at this
  whole hs := by
    obtain ⟨hended, hread⟩ := s.whole hs
    refine ⟨hended, ?_⟩
    rw [unread_eq_nil.2 hread]
    simpa using hread

theorem unread_take (s : Stream α) (n : Nat) : (s.take n).unread = s.unread.drop n := by
  have hsent : s.sent = (s.read ++ s.unread.take n) ++ s.unread.drop n := by
    rw [List.append_assoc, List.take_append_drop, read_unread]
  exact (congrArg (List.drop _) hsent).trans List.drop_left

/-- The reader is told that the stream has ended. -/
@[simps] def observe (s : Stream α) (h : s.ended = true ∧ s.read = s.sent) : Stream α where
  sent := s.sent
  read := s.read
  ended := s.ended
  seen := true
  le := s.le
  whole _ := h

/-- What a writer and a reader do. -/
inductive Step : Stream α → Stream α → Prop
  | write (s : Stream α) (data : List α) (h : s.ended = false) : Step s (s.write data h)
  | finish (s : Stream α) : Step s s.finish
  | take (s : Stream α) (n : Nat) : Step s (s.take n)
  | observe (s : Stream α) (h : s.ended = true ∧ s.read = s.sent) : Step s (s.observe h)

end Stream

/-- Two directions between two ends. -/
structure Duplex (α : Type) where
  there : Stream α
  back : Stream α

/-- Each direction on its own. -/
inductive Duplex.Step {α : Type} : Duplex α → Duplex α → Prop
  | there {s t : Stream α} (back : Stream α) (h : s.Step t) : Step ⟨s, back⟩ ⟨t, back⟩
  | back {s t : Stream α} (there : Stream α) (h : s.Step t) : Step ⟨there, s⟩ ⟨there, t⟩

/-! ## Relays -/

/-- A relay that has lost nothing: what it has read it has written, but for
what it holds, and it ends the one stream after the end of the other. -/
structure Relay (α : Type) where
  source : Stream α
  target : Stream α
  held : List α
  relayed : source.read = target.sent ++ held
  ended : target.ended = true → source.seen = true ∧ held = []

namespace Relay

variable {α : Type}

/-- What the two ends see. -/
def through (r : Relay α) : Stream α where
  sent := r.source.sent
  read := r.target.read
  ended := r.source.ended
  seen := r.target.seen
  le := by
    have h := r.target.le.trans (List.prefix_append r.target.sent r.held)
    rw [← r.relayed] at h
    exact h.trans r.source.le
  whole hs := by
    obtain ⟨hended, hread⟩ := r.target.whole hs
    obtain ⟨hseen, hheld⟩ := r.ended hended
    obtain ⟨hsource, hall⟩ := r.source.whole hseen
    have hrelayed := r.relayed
    rw [hheld, List.append_nil] at hrelayed
    exact ⟨hsource, hread.trans (hrelayed.symm.trans hall)⟩

/-- What the ends do at their ends, and what the relay does between them. -/
inductive Move : Relay α → Relay α → Prop
  | write {r r' : Relay α} (data : List α) (h : r.source.ended = false)
      (hs : r'.source = r.source.write data h) (ht : r'.target = r.target) : Move r r'
  | finish {r r' : Relay α} (hs : r'.source = r.source.finish) (ht : r'.target = r.target) : Move r r'
  | take {r r' : Relay α} (n : Nat) (hs : r'.source = r.source) (ht : r'.target = r.target.take n) : Move r r'
  | observe {r r' : Relay α} (h : r.target.ended = true ∧ r.target.read = r.target.sent)
      (hs : r'.source = r.source) (ht : r'.target = r.target.observe h) : Move r r'
  | inside {r r' : Relay α} (hsent : r'.source.sent = r.source.sent) (hended : r'.source.ended = r.source.ended)
      (hread : r'.target.read = r.target.read) (hseen : r'.target.seen = r.target.seen) : Move r r'

/-- What the reader has not read begins with what was written to it. -/
theorem unread_through (r : Relay α) : ∃ rest, r.through.unread = r.target.unread ++ rest := by
  obtain ⟨rest, hrest⟩ := r.source.le
  refine ⟨r.held ++ rest, ?_⟩
  have hsent : r.through.sent = r.target.sent ++ (r.held ++ rest) := by
    rw [← List.append_assoc, ← r.relayed]
    exact hrest.symm
  rw [Stream.unread, hsent, ← r.target.read_unread, List.append_assoc]
  exact List.drop_left

theorem take_through (r : Relay α) (n : Nat) :
    r.target.unread.take n = r.through.unread.take (min n r.target.unread.length) := by
  obtain ⟨rest, hrest⟩ := r.unread_through
  rw [hrest, List.take_append_of_le_length (Nat.min_le_right ..)]
  simp [List.take_eq_take_iff]

/-- **A relay is a stream.** What happens at a relay is one step of the stream that its ends
see, or nothing to them. -/
theorem Move.step {r r' : Relay α} (h : Move r r') : Relation.ReflGen Stream.Step r.through r'.through := by
  cases h with
  | write data h hs ht =>
    have he : r'.through = r.through.write data h :=
      Stream.ext (by simp [through, hs]) (by simp [through, ht])
        (by simp [through, hs]) (by simp [through, ht])
    rw [he]
    exact .single (.write ..)
  | finish hs ht =>
    have he : r'.through = r.through.finish :=
      Stream.ext (by simp [through, hs]) (by simp [through, ht])
        (by simp [through, hs]) (by simp [through, ht])
    rw [he]
    exact .single (.finish _)
  | take n hs ht =>
    have he : r'.through = r.through.take (min n r.target.unread.length) := by
      refine Stream.ext (by simp [through, hs]) ?_
        (by simp [through, hs]) (by simp [through, ht])
      have hread : r'.through.read = r.target.read ++ r.target.unread.take n := by
        simp [through, ht]
      rw [hread, take_through]
      rfl
    rw [he]
    exact .single (.take ..)
  | observe h hs ht =>
    have hseen : r'.through.seen = true := by simp [through, ht]
    obtain ⟨hended, hread⟩ := r'.through.whole hseen
    have hended' : r.through.ended = true := by simpa [through, hs] using hended
    have hread' : r.through.read = r.through.sent := by
      simpa [through, hs, ht] using hread
    have he : r'.through = r.through.observe ⟨hended', hread'⟩ :=
      Stream.ext (by simp [through, hs]) (by simp [through, ht])
        (by simp [through, hs]) (by simp [through, ht])
    rw [he]
    exact .single (.observe ..)
  | inside hsent hended hread hseen =>
    have he : r'.through = r.through := Stream.ext hsent hread hended hseen
    rw [he]

end Relay

end CartyxInfra
