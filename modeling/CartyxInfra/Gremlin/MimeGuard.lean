/-
`MimeGuard`: which WebSocket frames come to the decoders.

The guard looks ahead into a binary frame for the MIME name that TinkerPop's
decoder will read, and the two must agree on every content: the decoder takes
the length byte for signed where the guard does not, and what it does with a
name it does not know is to use its default serializer.
-/
import CartyxInfra.Lib.JString

namespace CartyxInfra.Gremlin

open JString

/-- A `ByteBuf`: its memory, of which the bytes between the two indexes are readable. -/
structure ByteBuf where
  memory : List UInt8
  readerIndex : Nat
  writerIndex : Nat
  indexes : readerIndex ≤ writerIndex ∧ writerIndex ≤ memory.length

/-- A stretch of a buffer's memory. -/
structure Stretch where
  index : Nat
  length : Nat
  deriving DecidableEq

/-- What comes of looking at a buffer, and what of its memory was read for it;
nothing comes where an index is out of bounds. -/
structure Look (α : Type) where
  reads : List Stretch
  result : Option α
  deriving DecidableEq

namespace Look

instance : Monad Look where
  pure a := ⟨[], some a⟩
  bind look next :=
    match look.result with
    | none => ⟨look.reads, none⟩
    | some a => ⟨look.reads ++ (next a).reads, (next a).result⟩

@[simp] theorem pure_eq {α : Type} (a : α) : (pure a : Look α) = ⟨[], some a⟩ := rfl

@[simp] theorem bind_some {α β : Type} {reads : List Stretch} {a : α} {next : α → Look β} :
    ((⟨reads, some a⟩ : Look α) >>= next) = ⟨reads ++ (next a).reads, (next a).result⟩ := rfl

end Look

/-- The decoding of `StandardCharsets.US_ASCII`: what stands for a byte that is
not ASCII is not ASCII either. -/
structure UsAscii where
  char : UInt8 → UInt16
  ascii : ∀ byte, byte < 128 → char byte = byte.toUInt16
  other : ∀ byte, 128 ≤ byte → 128 ≤ char byte

namespace ByteBuf

/-- `readableBytes()`. -/
def readableBytes (bytes : ByteBuf) : Nat := bytes.writerIndex - bytes.readerIndex

/-- `isReadable()`. -/
def isReadable (bytes : ByteBuf) : Bool := bytes.writerIndex > bytes.readerIndex

/-- A stretch of the memory; it need not be readable. -/
def getBytes (bytes : ByteBuf) (index length : Nat) : Look (List UInt8) :=
  ⟨[⟨index, length⟩],
    if index + length ≤ bytes.memory.length then some ((bytes.memory.drop index).take length) else none⟩

/-- `getUnsignedByte(index)`. -/
def getUnsignedByte (bytes : ByteBuf) (index : Nat) : Look Nat := do
  let byte ← bytes.getBytes index 1
  pure (byte.headD 0).toNat

/-- `toString(index, length, charset)`. -/
def toString (bytes : ByteBuf) (index length : Nat) (charset : UsAscii) : Look JString := do
  let content ← bytes.getBytes index length
  pure (content.map charset.char)

/-- The readable bytes. -/
def readable (bytes : ByteBuf) : List UInt8 :=
  (bytes.memory.drop bytes.readerIndex).take bytes.readableBytes

/-- A stretch within the readable bytes. -/
def Covers (bytes : ByteBuf) (read : Stretch) : Prop :=
  bytes.readerIndex ≤ read.index ∧ read.index + read.length ≤ bytes.writerIndex

theorem length_readable (bytes : ByteBuf) : bytes.readable.length = bytes.readableBytes := by
  have h := bytes.indexes
  simp only [readable, readableBytes, List.length_take, List.length_drop]
  omega

/-- A stretch of the readable bytes is read as it stands there. -/
theorem getBytes_readable (bytes : ByteBuf) (start length : Nat)
    (h : start + length ≤ bytes.readable.length) :
    bytes.getBytes (bytes.readerIndex + start) length =
        ⟨[⟨bytes.readerIndex + start, length⟩], some ((bytes.readable.drop start).take length)⟩ ∧
      bytes.Covers ⟨bytes.readerIndex + start, length⟩ := by
  have hi := bytes.indexes
  rw [length_readable, readableBytes] at h
  refine ⟨?_, by simp only [Covers]; omega⟩
  have hin : bytes.readerIndex + start + length ≤ bytes.memory.length := by omega
  simp only [getBytes, if_pos hin, readable, readableBytes, List.drop_take, List.take_take, List.drop_drop]
  rw [Nat.min_eq_left (by omega)]

theorem isReadable_iff (bytes : ByteBuf) : bytes.isReadable = true ↔ bytes.readable ≠ [] := by
  rw [← List.length_pos_iff, length_readable, isReadable, decide_eq_true_eq]
  exact Nat.sub_pos_iff_lt.symm

/-- The first readable byte is read as a number. -/
theorem getUnsignedByte_readable {bytes : ByteBuf} {first : UInt8} {tail : List UInt8}
    (h : bytes.readable = first :: tail) :
    bytes.getUnsignedByte bytes.readerIndex = ⟨[⟨bytes.readerIndex, 1⟩], some first.toNat⟩ ∧
      bytes.Covers ⟨bytes.readerIndex, 1⟩ := by
  obtain ⟨hfirst, hcovers⟩ := bytes.getBytes_readable 0 1 (by simp [h])
  simp only [Nat.add_zero, List.drop_zero, h] at hfirst hcovers
  refine ⟨?_, hcovers⟩
  rw [getUnsignedByte, hfirst]
  rfl

end ByteBuf

/-- The types of WebSocket frames. -/
inductive FrameType
  | text
  | binary
  | continuation
  | close
  | ping
  | pong
  deriving DecidableEq

/-- A frame, with its flags and what it carries. -/
structure WebSocketFrame where
  type : FrameType
  finalFragment : Bool
  rsv : Int
  content : ByteBuf

/-- What comes in: a frame, or another object, told apart by its identity. -/
inductive FrameMessage
  | frame (frame : WebSocketFrame)
  | other (identity : Nat)

/-- What the guard does with a message. -/
inductive GuardEffect
  | fireChannelRead (message : FrameMessage)
  | release (message : FrameMessage)
  | close

namespace MimeGuard

/-- The one type of binary frames. -/
def MIME : JString := utf16 "application/vnd.gremlin-v3.0+json"

/-- The condition on a binary frame under which it is released and not forwarded. -/
def refused (ascii : UsAscii) (bytes : ByteBuf) : Look Bool := do
  let start := bytes.readerIndex
  let length ← if bytes.isReadable then bytes.getUnsignedByte start else pure 0
  if length = 0 ∨ bytes.readableBytes < length + 1 then pure true
  else
    let mime ← bytes.toString (start + 1) length ascii
    pure (mime != MIME)

/-- `channelRead`, with what it looks at of the frame. -/
def channelRead (ascii : UsAscii) (msg : FrameMessage) : Look (List GuardEffect) :=
  match msg with
  | .frame frame =>
    if frame.type = .close then pure [.release msg, .close]
    else if frame.rsv ≠ 0 ∨ frame.finalFragment = false ∨ frame.type = .continuation then
      pure [.release msg, .close]
    else if frame.type = .binary then do
      let refused ← refused ascii frame.content
      if refused then pure [.release msg, .close] else pure [.fireChannelRead msg]
    else pure [.fireChannelRead msg]
  | .other _ => pure [.fireChannelRead msg]

/-! ## What the guard sees of a binary frame -/

/-- The name in ASCII. -/
def MIME_BYTES : List UInt8 := "application/vnd.gremlin-v3.0+json".toList.map fun c => c.toNat.toUInt8

theorem MIME_eq : MIME = MIME_BYTES.map UInt8.toUInt16 := by decide

theorem MIME_BYTES_length : MIME_BYTES.length = 33 := by decide

theorem MIME_BYTES_ascii : ∀ byte ∈ MIME_BYTES, byte < 128 := by decide +kernel

/-- Readable bytes that name the MIME type: its length, the name in ASCII, and any rest. -/
def Named (content : List UInt8) : Prop := ∃ rest, content = 33 :: (MIME_BYTES ++ rest)

theorem char_eq_iff (ascii : UsAscii) {byte byte' : UInt8} (h : byte' < 128) :
    ascii.char byte = byte'.toUInt16 ↔ byte = byte' := by
  constructor
  · intro he
    by_cases hb : byte < 128
    · rw [ascii.ascii byte hb] at he
      have hn := congrArg UInt16.toNat he
      exact UInt8.toNat_inj.1 (by simpa using hn)
    · have hother := ascii.other byte (UInt8.not_lt.1 hb)
      rw [he] at hother
      simp only [UInt16.le_iff_toNat_le, UInt8.lt_iff_toNat_lt, UInt8.toNat_toUInt16] at hother h
      exact absurd h (Nat.not_lt.2 hother)
  · rintro rfl
    exact ascii.ascii byte h

/-- Decoding mistakes no other bytes for an ASCII text. -/
theorem map_char_eq_iff (ascii : UsAscii) : ∀ {content text : List UInt8}, (∀ byte ∈ text, byte < 128) →
    (content.map ascii.char = text.map UInt8.toUInt16 ↔ content = text)
  | [], [], _ => by simp
  | [], _ :: _, _ | _ :: _, [], _ => by simp
  | byte :: content, byte' :: text, h => by
    have hrest : content.map ascii.char = text.map UInt8.toUInt16 ↔ content = text :=
      map_char_eq_iff ascii fun b hb => h b (.tail _ hb)
    simp only [List.map_cons, List.cons.injEq, char_eq_iff ascii (h byte' (.head _)), hrest]

theorem named_cons_iff {first : UInt8} {tail : List UInt8} :
    Named (first :: tail) ↔ first.toNat ≤ tail.length ∧ tail.take first.toNat = MIME_BYTES := by
  constructor
  · rintro ⟨rest, hnamed⟩
    simp only [List.cons.injEq] at hnamed
    obtain ⟨rfl, rfl⟩ := hnamed
    have htoNat : (33 : UInt8).toNat = MIME_BYTES.length := by decide
    rw [htoNat, List.take_left, List.length_append]
    exact ⟨Nat.le_add_right _ _, rfl⟩
  · rintro ⟨hle, htake⟩
    have hfirst : first.toNat = 33 := by
      rw [← MIME_BYTES_length, ← htake, List.length_take, Nat.min_eq_left hle]
    refine ⟨tail.drop first.toNat, ?_⟩
    rw [← htake, List.take_append_drop]
    exact congrArg (· :: tail) (UInt8.toNat_inj.1 hfirst)

/-- **A binary frame is let through exactly when its readable bytes name the MIME
type**, and no other of its bytes is read to tell. -/
theorem refused_eq (ascii : UsAscii) (bytes : ByteBuf) : ∃ reads verdict,
    refused ascii bytes = ⟨reads, some verdict⟩ ∧ (verdict = false ↔ Named bytes.readable) ∧
      ∀ read ∈ reads, bytes.Covers read := by
  have hlength := bytes.length_readable
  have hreadable := bytes.isReadable_iff
  cases hcontent : bytes.readable with
  | nil =>
    have hread : ¬ bytes.isReadable = true := by simp [hreadable, hcontent]
    exact ⟨[], true, by simp [refused, hread], by simp [Named], by simp⟩
  | cons first tail =>
    have hread : bytes.isReadable = true := by simp [hreadable, hcontent]
    obtain ⟨hunsigned, hcovers⟩ := ByteBuf.getUnsignedByte_readable hcontent
    rw [hcontent, List.length_cons] at hlength
    by_cases hshort : first.toNat = 0 ∨ bytes.readableBytes < first.toNat + 1
    · refine ⟨[⟨bytes.readerIndex, 1⟩], true, ?_, ?_, by simpa using hcovers⟩
      · simp only [refused, hread, if_true, hunsigned, Look.bind_some, if_pos hshort, Look.pure_eq,
          List.append_nil]
      · refine ⟨nofun, fun hnamed => ?_⟩
        obtain ⟨hle, htake⟩ := named_cons_iff.1 hnamed
        have htaken := congrArg List.length htake
        rw [List.length_take, MIME_BYTES_length] at htaken
        omega
    · obtain ⟨hname, hcovers'⟩ := bytes.getBytes_readable 1 first.toNat
        (by simp only [hcontent, List.length_cons]; omega)
      simp only [hcontent, List.drop_one, List.tail_cons] at hname
      refine ⟨[⟨bytes.readerIndex, 1⟩, ⟨bytes.readerIndex + 1, first.toNat⟩],
        (tail.take first.toNat).map ascii.char != MIME, ?_, ?_, ?_⟩
      · simp only [refused, hread, if_true, hunsigned, Look.bind_some, if_neg hshort, Look.pure_eq,
          ByteBuf.toString, hname, List.append_nil, List.map_take, List.singleton_append]
      · have hle : first.toNat ≤ tail.length := by omega
        rw [bne_eq_false_iff_eq, MIME_eq, map_char_eq_iff ascii MIME_BYTES_ascii, named_cons_iff,
          and_iff_right hle]
      · simpa using ⟨hcovers, hcovers'⟩

/-- A frame that may come to the decoders. -/
structure Passes (frame : WebSocketFrame) : Prop where
  unclosed : frame.type ≠ .close
  rsv : frame.rsv = 0
  final : frame.finalFragment = true
  whole : frame.type ≠ .continuation
  named : frame.type = .binary → Named frame.content.readable

/-- **A frame is forwarded, or else released once and the channel closed**, and
nothing but its readable bytes is read for it. -/
theorem channelRead_eq (ascii : UsAscii) (frame : WebSocketFrame) : ∃ reads effects,
    channelRead ascii (.frame frame) = ⟨reads, some effects⟩ ∧
      (Passes frame → effects = [.fireChannelRead (.frame frame)]) ∧
      (¬ Passes frame → effects = [.release (.frame frame), .close]) ∧
      ∀ read ∈ reads, frame.content.Covers read := by
  by_cases hclose : frame.type = .close
  · exact ⟨[], _, by simp [channelRead, hclose], fun h => absurd hclose h.unclosed, fun _ => rfl, by simp⟩
  by_cases hflags : frame.rsv ≠ 0 ∨ frame.finalFragment = false ∨ frame.type = .continuation
  · refine ⟨[], _, by simp only [channelRead, if_neg hclose, if_pos hflags, Look.pure_eq],
      fun h => ?_, fun _ => rfl,
      by simp⟩
    rcases hflags with hrsv | hfinal | hwhole
    · exact absurd h.rsv hrsv
    · exact absurd h.final (by simp [hfinal])
    · exact absurd hwhole h.whole
  have hplain : frame.rsv = 0 ∧ frame.finalFragment = true ∧ frame.type ≠ .continuation := by
    simpa only [ne_eq, not_or, not_not, Bool.not_eq_false] using hflags
  by_cases hbinary : frame.type = .binary
  · obtain ⟨reads, verdict, hrefused, hverdict, hcovers⟩ := refused_eq ascii frame.content
    refine ⟨reads,
      if verdict = true then [.release (.frame frame), .close] else [.fireChannelRead (.frame frame)],
      ?_, fun h => ?_, fun h => ?_, hcovers⟩
    · simp only [channelRead, if_neg hclose, if_neg hflags, if_pos hbinary, hrefused, Look.bind_some]
      split <;> simp
    · rw [hverdict.2 (h.named hbinary)]
      rfl
    · cases verdict with
      | true => rfl
      | false => exact absurd ⟨hclose, hplain.1, hplain.2.1, hplain.2.2, fun _ => hverdict.1 rfl⟩ h
  · refine ⟨[], _, by simp only [channelRead, if_neg hclose, if_neg hflags, if_neg hbinary, Look.pure_eq],
      fun _ => rfl, fun h => ?_, by simp⟩
    exact absurd ⟨hclose, hplain.1, hplain.2.1, hplain.2.2, fun h => absurd h hbinary⟩ h

end MimeGuard

end CartyxInfra.Gremlin
