/-
`IdentityChannelizer`: the configuration it insists on, the pipeline it
leaves, and with them what a binary frame is decoded by.

TinkerPop's part is taken as it is documented: its decoder reads a signed
length byte and that many bytes of MIME name, and has a default serializer
for a name that none is registered under (`BinaryDecoder`).
-/
import CartyxInfra.Gremlin.MimeGuard

namespace CartyxInfra.Gremlin

open JString

/-- The classes that `init` tells apart. -/
inductive JavaClass
  | IdentityProfileAuthorizer
  | SimpleAuthenticator
  | IdentityGraphSONSerializer
  | other (name : JString)
  deriving DecidableEq

/-- An object of the server: its class, and which one of the class. -/
structure Instance where
  javaClass : JavaClass
  identity : Nat
  deriving DecidableEq

/-- The settings that `init` looks at. -/
structure Settings where
  authenticationHandler : Option JString
  evaluationTimeout : Int
  maxContentLength : Int
  idleConnectionTimeout : Int

/-- What `super.init` has set. The serializers are a map: no name is there twice. -/
structure Channelizer where
  authorizer : Option Instance
  authenticator : Option Instance
  settings : Settings
  serializers : List (JString × Instance)
  distinct : (serializers.map (·.1)).Nodup

namespace Channelizer

/-- `serializers.get`. -/
def get (channelizer : Channelizer) (name : JString) : Option Instance :=
  (channelizer.serializers.find? fun entry => entry.1 == name).map (·.2)

/-- `instanceof`, of a class that has no subclasses; a null is of none. -/
def instanceOf (object : Option Instance) (javaClass : JavaClass) : Prop :=
  object.map (·.javaClass) = some javaClass

instance : Decidable (instanceOf object javaClass) := inferInstanceAs (Decidable (_ = _))

/-- Whether `init` returns; it throws on every other configuration. -/
def init (channelizer : Channelizer) : Bool :=
  let settings := channelizer.settings
  !(channelizer.authorizer = none ∨ ¬ instanceOf channelizer.authorizer .IdentityProfileAuthorizer
    ∨ ¬ instanceOf channelizer.authenticator .SimpleAuthenticator
    ∨ settings.authenticationHandler ≠ none
    ∨ settings.evaluationTimeout ≤ 0 ∨ settings.evaluationTimeout > 15000
    ∨ settings.maxContentLength > 65536
    ∨ settings.idleConnectionTimeout ≤ 0 ∨ settings.idleConnectionTimeout > 300000
    ∨ channelizer.serializers.length ≠ 2
    ∨ ¬ instanceOf (channelizer.get (utf16 "application/json")) .IdentityGraphSONSerializer
    ∨ ¬ instanceOf (channelizer.get (utf16 "application/vnd.gremlin-v3.0+json")) .IdentityGraphSONSerializer)

theorem init_registers {channelizer : Channelizer} (h : channelizer.init = true) : ∃ serializer,
    channelizer.get MimeGuard.MIME = some serializer ∧
      serializer.javaClass = .IdentityGraphSONSerializer := by
  simp only [init, Bool.not_eq_true', decide_eq_false_iff_not, not_or, not_not] at h
  obtain ⟨-, -, -, -, -, -, -, -, -, -, -, hregistered⟩ := h
  simpa only [instanceOf, Option.map_eq_some_iff, MimeGuard.MIME] using hregistered

end Channelizer

/-! ## The pipeline -/

/-- The name of TinkerPop's decoder of text frames. -/
def REQUEST_TEXT_DECODER : JString := utf16 "request-text-decoder"

/-- The name of the guard. -/
def IDENTITY_MIME_GUARD : JString := utf16 "identity-mime-guard"

/-- The name of the gate. -/
def IDENTITY_AUTHENTICATION_GATE : JString := utf16 "identity-authentication-gate"

/-- What is under a name: one of the handlers that `configure` brings, or TinkerPop's own. -/
inductive Handler
  | MimeGuard
  | AuthenticationGate
  | RequestGate
  | upstream
  deriving DecidableEq

/-- A `ChannelPipeline`: its handlers, each with its name. What names no handler
of it throws, and so does a name that is taken. -/
abbrev ChannelPipeline := List (JString × Handler)

namespace ChannelPipeline

/-- `pipeline.names()`. -/
def names (pipeline : ChannelPipeline) : List JString := pipeline.map (·.1)

/-- `pipeline.remove(name)`, which throws where there is no such handler. -/
def remove (pipeline : ChannelPipeline) (name : JString) : Option ChannelPipeline :=
  if name ∈ pipeline.names then some (pipeline.eraseP fun entry => entry.1 == name) else none

/-- The pipeline with an entry before the handler of a name. -/
def insertBefore (base : JString) (entry : JString × Handler) : ChannelPipeline → ChannelPipeline
  | [] => []
  | first :: rest => if first.1 = base then entry :: first :: rest else first :: insertBefore base entry rest

/-- `pipeline.addBefore(base, name, handler)`, which throws where a name is missing or taken. -/
def addBefore (pipeline : ChannelPipeline) (base name : JString) (handler : Handler) : Option ChannelPipeline :=
  if base ∈ pipeline.names ∧ name ∉ pipeline.names then some (insertBefore base (name, handler) pipeline) else none

/-- `replace(name, name, handler)`. -/
def replace (pipeline : ChannelPipeline) (name : JString) (handler : Handler) : Option ChannelPipeline :=
  if name ∈ pipeline.names then
    some (pipeline.map fun entry => if entry.1 = name then (name, handler) else entry)
  else none

variable {base name : JString} {entry : JString × Handler} {pipeline : ChannelPipeline}

@[simp] theorem names_cons : names (entry :: pipeline) = entry.1 :: names pipeline := rfl

/-- A replaced handler keeps its name. -/
theorem names_replace {handler : Handler} :
    names (pipeline.map fun entry => if entry.1 = name then (name, handler) else entry) = pipeline.names := by
  rw [names, List.map_map]
  refine List.map_congr_left fun entry _ => ?_
  simp only [Function.comp_apply]
  split
  · next he => exact he.symm
  · rfl

theorem names_sublist_insertBefore : pipeline.names.Sublist (insertBefore base entry pipeline).names := by
  induction pipeline with
  | nil => exact .slnil
  | cons first rest ih =>
    simp only [insertBefore]
    split
    · exact .cons _ (.refl _)
    · exact .cons_cons _ ih

/-- What comes after the handler that one is inserted before comes after the new one too. -/
theorem insertBefore_sublist {later : JString} {handler : Handler} : ∀ {pipeline : ChannelPipeline},
    [base, later].Sublist pipeline.names →
      [name, later].Sublist (insertBefore base (name, handler) pipeline).names
  | first :: rest, h => by
    simp only [insertBefore]
    split
    · exact .cons_cons _ (List.singleton_sublist.2 (h.subset (by simp)))
    · next hne =>
      rw [names_cons] at h
      cases h with
      | cons _ h => exact .cons _ (insertBefore_sublist h)
      | cons_cons _ _ => exact absurd rfl hne

/-- What is removed takes nothing else away. -/
theorem sublist_eraseP {names' : List JString} (h : names'.Sublist pipeline.names) (hname : name ∉ names') :
    names'.Sublist (names (pipeline.eraseP fun entry => entry.1 == name)) := by
  have hnames : names (pipeline.eraseP fun entry => entry.1 == name) = pipeline.names.erase name := by
    rw [List.erase_eq_eraseP', names, names, List.eraseP_map]
    rfl
  rw [hnames, ← List.erase_of_not_mem hname]
  exact h.erase name

end ChannelPipeline

/-- The pipeline of `super.configure`, and the names it has there: the text
decoder comes before the binary one. -/
structure UpstreamPipeline where
  handlers : List JString
  compression : JString
  authenticator : JString
  authorizer : JString
  binaryDecoder : JString
  decoders : [REQUEST_TEXT_DECODER, binaryDecoder].Sublist handlers
  kept : compression ∉ [REQUEST_TEXT_DECODER, binaryDecoder]

/-- The handlers that `super.configure` has added. -/
def UpstreamPipeline.pipeline (upstream : UpstreamPipeline) : ChannelPipeline :=
  upstream.handlers.map fun name => (name, .upstream)

def configure (upstream : UpstreamPipeline) : Option ChannelPipeline := do
  let pipeline ← upstream.pipeline.remove upstream.compression
  let pipeline ← pipeline.addBefore REQUEST_TEXT_DECODER IDENTITY_MIME_GUARD .MimeGuard
  let pipeline ← pipeline.addBefore upstream.authenticator IDENTITY_AUTHENTICATION_GATE .AuthenticationGate
  pipeline.replace upstream.authorizer .RequestGate

theorem names_pipeline (upstream : UpstreamPipeline) : upstream.pipeline.names = upstream.handlers := by
  rw [UpstreamPipeline.pipeline, ChannelPipeline.names, List.map_map]
  exact List.map_id _

theorem configure_guarded {upstream : UpstreamPipeline} {pipeline : ChannelPipeline}
    (h : configure upstream = some pipeline) :
      [IDENTITY_MIME_GUARD, upstream.binaryDecoder].Sublist pipeline.names := by
  simp only [configure, ChannelPipeline.remove, ChannelPipeline.addBefore, ChannelPipeline.replace,
    Option.bind_eq_bind, Option.bind_eq_some_iff, Option.ite_none_right_eq_some, Option.some.injEq] at h
  obtain ⟨_, ⟨-, rfl⟩, _, ⟨-, rfl⟩, _, ⟨-, rfl⟩, -, rfl⟩ := h
  have hdecoders := ChannelPipeline.sublist_eraseP ((names_pipeline upstream).symm ▸ upstream.decoders) upstream.kept
  rw [ChannelPipeline.names_replace]
  exact (ChannelPipeline.insertBefore_sublist hdecoders).trans ChannelPipeline.names_sublist_insertBefore

/-! ## What decodes a frame -/

/-- TinkerPop's decoder of binary frames: the serializer it selects for the
readable bytes of one, from those registered and the default. -/
structure BinaryDecoder where
  text : List UInt8 → JString
  select : (JString → Option Instance) → Instance → List UInt8 → Option Instance
  ascii : ∀ name, (∀ byte ∈ name, byte < 128) → text name = name.map UInt8.toUInt16
  selects : ∀ registered fallback length name rest, 0 < length.toBitVec.toInt →
    length.toBitVec.toInt = (name.length : Int) →
      select registered fallback (length :: (name ++ rest)) = some ((registered (text name)).getD fallback)

theorem BinaryDecoder.select_named (decoder : BinaryDecoder) {registered : JString → Option Instance}
    {fallback serializer : Instance} {content : List UInt8} (h : MimeGuard.Named content)
    (hr : registered MimeGuard.MIME = some serializer) :
    decoder.select registered fallback content = some serializer := by
  obtain ⟨rest, rfl⟩ := h
  rw [decoder.selects registered fallback 33 MimeGuard.MIME_BYTES rest (by decide) (by decide),
    decoder.ascii _ MimeGuard.MIME_BYTES_ascii, ← MimeGuard.MIME_eq, hr, Option.getD_some]

/-- **A frame is forwarded exactly when it is unfragmented, bears no flags and, if
binary, names the MIME type**; every other is released once and closes the channel, and
nothing but readable bytes is read. So whatever comes to the binary decoder, behind the
guard, is decoded by the registered `IdentityGraphSONSerializer`. -/
theorem mimeGuard_selects (ascii : UsAscii) (frame : WebSocketFrame) :
    (∃ reads effects, MimeGuard.channelRead ascii (.frame frame) = ⟨reads, some effects⟩ ∧
      (MimeGuard.Passes frame → effects = [.fireChannelRead (.frame frame)]) ∧
      (¬ MimeGuard.Passes frame → effects = [.release (.frame frame), .close]) ∧
      ∀ read ∈ reads, frame.content.Covers read) ∧
    (∀ upstream pipeline, configure upstream = some pipeline →
      [IDENTITY_MIME_GUARD, upstream.binaryDecoder].Sublist pipeline.names) ∧
    ∀ channelizer : Channelizer, channelizer.init = true → frame.type = .binary → MimeGuard.Passes frame →
      ∃ serializer, channelizer.get MimeGuard.MIME = some serializer ∧
        serializer.javaClass = .IdentityGraphSONSerializer ∧
        ∀ (decoder : BinaryDecoder) fallback,
          decoder.select channelizer.get fallback frame.content.readable = some serializer := by
  refine ⟨MimeGuard.channelRead_eq ascii frame, fun _ _ => configure_guarded, ?_⟩
  intro channelizer hinit hbinary hpasses
  obtain ⟨serializer, hregistered, hclass⟩ := channelizer.init_registers hinit
  exact ⟨serializer, hregistered, hclass, fun decoder _ =>
    decoder.select_named (hpasses.named hbinary) hregistered⟩

/-- A decoder that takes every byte of the name for a character. -/
def signedLengthDecoder : BinaryDecoder where
  text := List.map UInt8.toUInt16
  select registered fallback
    | [] => none
    | length :: rest =>
      if length.toBitVec.toInt ≤ 0 then none
      else some ((registered ((rest.take length.toBitVec.toInt.toNat).map UInt8.toUInt16)).getD fallback)
  ascii _ _ := rfl
  selects registered fallback length name rest hpos hlength := by
    rw [hlength] at hpos
    simp only [hlength, Int.toNat_natCast, List.take_left, if_neg (Int.not_le.2 hpos)]

/-- A channelizer with both of the serializers. -/
def twoSerializers : Channelizer where
  authorizer := some ⟨.IdentityProfileAuthorizer, 0⟩
  authenticator := some ⟨.SimpleAuthenticator, 0⟩
  settings := ⟨none, 15000, 65536, 300000⟩
  serializers := [(utf16 "application/json", ⟨.IdentityGraphSONSerializer, 1⟩),
    (MimeGuard.MIME, ⟨.IdentityGraphSONSerializer, 2⟩)]
  distinct := by decide

/-- A frame that has been read up to its second byte, and holds one more than its readable bytes. -/
def namedFrame : WebSocketFrame where
  type := .binary
  finalFragment := true
  rsv := 0
  content := ⟨7 :: 33 :: MimeGuard.MIME_BYTES ++ [123, 125], 1, 36, by decide⟩

theorem mimeGuard_selects_sample :
    signedLengthDecoder.select twoSerializers.get ⟨.other (utf16 "GraphBinaryMessageSerializerV1"), 0⟩
      namedFrame.content.readable = some ⟨.IdentityGraphSONSerializer, 2⟩ := by
  have hnamed : MimeGuard.Named namedFrame.content.readable := ⟨[123], by decide +kernel⟩
  have hpasses : MimeGuard.Passes namedFrame := ⟨by decide, rfl, rfl, by decide, fun _ => hnamed⟩
  have hascii : UsAscii := ⟨UInt8.toUInt16, fun _ _ => rfl, fun byte h => by
    simpa [UInt16.le_iff_toNat_le, UInt8.le_iff_toNat_le] using h⟩
  obtain ⟨serializer, hget, -, hselect⟩ :=
    (mimeGuard_selects hascii namedFrame).2.2 twoSerializers (by decide +kernel) rfl hpasses
  have hsecond : twoSerializers.get MimeGuard.MIME = some
    ⟨.IdentityGraphSONSerializer, 2⟩ := by decide +kernel
  rw [hselect signedLengthDecoder, ← hget, hsecond]

end CartyxInfra.Gremlin
