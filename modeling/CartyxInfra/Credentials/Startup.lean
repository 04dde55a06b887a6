/-
The credentials as JanusGraph takes them at its start, and what
`provision-secret` promises of them.

Both check that the application's password is long enough and not the
operator's, but not of the same text: `provision-secret` trims what
JavaScript calls white space and compares the bytes as they are, the start
trims every character up to U+0020 and compares what is left.
`patched_accepted_iff` says which passwords fall between the two.
-/
import CartyxInfra.Credentials.ProvisionSecret

namespace CartyxInfra.Credentials

open JString

/-! ## `janusgraph-config.groovy` -/

/-- What Java's `trim` removes. -/
def javaBlank (c : UInt16) : Bool := c ≤ 0x20

/-- `readSecret`, of the files a Secret is mounted as; none where it throws. `fileText` is `File.text`. -/
def readSecret (fileText : Bytes → JString) (secret : Secret) (name : JString) : Option JString :=
  (secret.get name).map fun value => trim javaBlank (fileText value)

/-- The password of `cartyx_app`; none where the start is refused. -/
def appPassword (fileText : Bytes → JString) (secret : Secret) : Option JString :=
  (readSecret fileText secret appKey).bind fun password =>
    if password.length < 32 then none
    else (readSecret fileText secret operatorKey).bind fun operator =>
      if password = operator then none else some password

variable {fileText bufferText : Bytes → JString} {secret secret' : Secret} {value operator : Bytes}

theorem appPassword_isSome (happ : secret.get appKey = some value)
    (hop : secret.get operatorKey = some operator) :
    (appPassword fileText secret).isSome = true ↔
      32 ≤ (trim javaBlank (fileText value)).length ∧
        trim javaBlank (fileText value) ≠ trim javaBlank (fileText operator) := by
  simp only [appPassword, readSecret, happ, hop, Option.map_some, Option.bind_some]
  split
  · next h => simp [Nat.not_le.mpr h]
  · next h =>
    split
    · next he => simp [he]
    · next he => simp [he, Nat.not_lt.mp h]

/-! ## What is patched in -/

theorem Entries.get_put {key key' : JString} (entries : Entries) :
    (entries.put key value).get key' = if key = key' then some value else entries.get key' := by
  induction entries with
  | nil => by_cases h : key = key' <;> simp [put, get, h]
  | cons entry rest ih =>
    by_cases he : entry.1 = key
    · subst he
      by_cases h : entry.1 = key' <;> simp [put, get, h]
    · by_cases h : entry.1 = key'
      · have hne : key ≠ key' := fun hk => he (h.trans hk.symm)
        simp [put, get, h, hne, hne.symm]
      · simp only [put, get, he, h, beq_iff_eq, if_false, List.find?_cons_of_neg,
          not_false_eq_true] at ih ⊢
        exact ih

theorem patched_get {host : Host} {version key : JString}
    (h : host.patched secret version value = some secret') :
    secret'.get key = if appKey = key then some value else secret.get key := by
  simp only [Host.patched] at h
  split at h
  · simp only [Option.map_eq_some_iff] at h
    obtain ⟨entries, hentries, rfl⟩ := h
    simp only [Secret.get, hentries, Option.bind_some]
    exact Entries.get_put entries
  · cases h

/-! ## What comes through both -/

/-- `value.toString('utf8')` of valid UTF-8. -/
def ReadsUtf8 (bufferText : Bytes → JString) : Prop :=
  ∀ bytes text, decodeUtf8 bytes = some text → bufferText bytes = text

/-- `File.text` of valid UTF-8: a byte order mark may be left out. -/
def ReadsFile (fileText : Bytes → JString) : Prop :=
  ∀ bytes text, decodeUtf8 bytes = some text → fileText bytes = text ∨ text = 0xFEFF :: fileText bytes

/-- Different bytes that are one text but for what Java trims at its ends. -/
def SameBut (fileText : Bytes → JString) (value operator : Bytes) : Prop :=
  value ≠ operator ∧ ∃ core, Padded javaBlank core (fileText value) ∧ Padded javaBlank core (fileText operator)

/-- Fewer than 32 characters between ends that Java trims, which hold a
control character that JavaScript does not trim. -/
def Hollow (text : JString) : Prop :=
  ∃ left core right, text = left ++ core ++ right ∧ (∀ c ∈ left ++ right, javaBlank c = true) ∧
    (∃ c ∈ left ++ right, jsBlank c = false) ∧ core.length < 32

/-- A byte order mark makes no difference to JavaScript's `trim`. -/
theorem trim_bufferText {text : JString} (hbuffer : ReadsUtf8 bufferText) (hfile : ReadsFile fileText)
    (hvalue : decodeUtf8 value = some text) :
    trim jsBlank (bufferText value) = trim jsBlank (fileText value) := by
  rw [hbuffer value text hvalue]
  rcases hfile value text hvalue with htext | htext
  · rw [htext]
  · have hpadded : Padded jsBlank (fileText value) text :=
      ⟨[0xFEFF], [], by simp [jsBlank], by simp, by simpa using htext⟩
    exact hpadded.trim_eq

/-- A text that JavaScript finds long and Java does not is hollow. -/
theorem hollow_of_short {text : JString} (hlong : 32 ≤ (trim jsBlank text).length)
    (hshort : (trim javaBlank text).length < 32) : Hollow text := by
  obtain ⟨core, ⟨left, right, hleft, hright, htext⟩, hcore⟩ := trim_length_lt_iff.mp hshort
  refine ⟨left, core, right, htext, fun c hc => ?_, ?_, hcore⟩
  · rcases List.mem_append.mp hc with hc | hc
    · exact hleft c hc
    · exact hright c hc
  · by_contra hnone
    have hjs : ∀ c ∈ left ++ right, jsBlank c = true := fun c hc => by
      by_contra hblank
      exact hnone ⟨c, hc, by simpa using hblank⟩
    have hpadded : Padded jsBlank core text :=
      ⟨left, right, fun c hc => hjs c (List.mem_append_left right hc),
        fun c hc => hjs c (List.mem_append_right left hc), htext⟩
    have hlt : (trim jsBlank text).length < 32 := trim_length_lt_iff.mpr ⟨core, hpadded, hcore⟩
    omega

theorem Hollow.short {text : JString} (h : Hollow text) : (trim javaBlank text).length < 32 := by
  obtain ⟨left, core, right, htext, hblank, -, hcore⟩ := h
  refine trim_length_lt_iff.mpr ⟨core, ⟨left, right, fun c hc => ?_, fun c hc => ?_, htext⟩, hcore⟩
  · exact hblank c (List.mem_append_left right hc)
  · exact hblank c (List.mem_append_right left hc)

section

variable {host : Host} {files : JString → Option Bytes}

/-- A password that was patched in is not the operator's bytes. -/
theorem Added.ne_operator (h : Added bufferText host files secret secret' value)
    (hbuffer : ReadsUtf8 bufferText)
    (hop : secret.get operatorKey = some operator) : value ≠ operator := by
  intro he
  subst he
  cases value with
  | nil =>
    have hlong := h.long
    rw [hbuffer [] [] rfl] at hlong
    exact absurd hlong (by decide)
  | cons byte bytes => exact h.distinct (by simp [hop, truthy]) hop

end

/-- **The two checks.** When a run has put the application's key into a Secret
that exists, the start accepts the Secret it leaves, but for two gaps between
what was checked and what is: passwords that differ only in what Java trims,
and one that only control characters make long enough. -/
theorem patched_accepted_iff {host : Host} {environment : JString} {w w' : World}
    {out : Except Failure Unit × Unit} {text : JString} (hbuffer : ReadsUtf8 bufferText)
    (hfileText : ReadsFile fileText)
    (hrun : Program.exec host.handle (provisionSecret bufferText environment) () w = some (out, w'))
    (hs : w.secret = some secret) (hs' : w'.secret = some secret') (hpatched : secret' ≠ secret)
    (hop : secret.get operatorKey = some operator) (hfile : (host.secretsMjs w.files).2 appKey = some value)
    (hvalue : decodeUtf8 value = some text) :
    (appPassword fileText secret').isSome = true ↔
      ¬ SameBut fileText value operator ∧ ¬ Hollow (fileText value) := by
  rcases provisionSecret_existing hs hrun with hsame | ⟨secret'', value', hsecret, hadded⟩
  · rw [hs', Option.some.injEq] at hsame
    exact absurd hsame hpatched
  obtain rfl : secret' = secret'' := Option.some.inj (hs'.symm.trans hsecret)
  obtain rfl : value = value' := Option.some.inj (hfile.symm.trans hadded.file)
  have happ : secret'.get appKey = some value := by rw [patched_get hadded.patched, if_pos rfl]
  have hop' : secret'.get operatorKey = some operator := by
    rw [patched_get hadded.patched, if_neg (by decide), hop]
  have hlong : 32 ≤ (trim jsBlank (fileText value)).length := by
    rw [← trim_bufferText hbuffer hfileText hvalue]
    exact hadded.long
  rw [appPassword_isSome happ hop']
  constructor
  · rintro ⟨hjava, hne⟩
    refine ⟨fun hsame => hne (trim_eq_iff.mpr hsame.2), fun hhollow => ?_⟩
    exact absurd hhollow.short (Nat.not_lt.mpr hjava)
  · rintro ⟨hdiffer, hfull⟩
    refine ⟨?_, fun he => hdiffer ⟨hadded.ne_operator hbuffer hop, trim_eq_iff.mp he⟩⟩
    by_contra hshort
    exact hfull (hollow_of_short hlong (Nat.not_le.mp hshort))

/-! ## Samples -/

/-- `toString` of bytes that are UTF-8. -/
def sampleText (bytes : Bytes) : JString := (decodeUtf8 bytes).getD []

theorem sampleText_reads : ReadsUtf8 sampleText := fun bytes text h => by
  rw [sampleText, h, Option.getD_some]

theorem sampleText_readsFile : ReadsFile sampleText :=
  fun bytes text h => .inl (sampleText_reads bytes text h)

/-- A host whose credentials are complete, and nothing fails. -/
def sampleHost : Host where
  secretsMjs files := (true, files)
  nextVersion _ _ := utf16 "2"
  fate _ _ := .answered

/-- The directory holds an application's password, and the Secret the operator's. -/
def sampleWorld (operator value : Bytes) : World where
  secret := some ⟨utf16 "1", some [(operatorKey, operator)]⟩
  files file := if file == appKey then some value else if file == utf16 "tls.p12" then some [0x30] else none

/-- The Secret once the application's password has been added. -/
def samplePatched (operator value : Bytes) : Secret :=
  ⟨utf16 "2", some [(operatorKey, operator), (appKey, value)]⟩

/-- Such a password without its newline. -/
def bare (digit : UInt8) : Bytes := List.replicate 64 digit

/-- What `secrets.mjs` writes ends in a newline. -/
def written (digit : UInt8) : Bytes := bare digit ++ [0x0A]

theorem patched_accepted_sample :
    (appPassword sampleText (samplePatched (written 0x61) (written 0x62))).isSome = true ↔
      ¬ SameBut sampleText (written 0x62) (written 0x61) ∧ ¬ Hollow (sampleText (written 0x62)) :=
  patched_accepted_iff sampleText_reads sampleText_readsFile
    (show Program.exec sampleHost.handle (provisionSecret sampleText (utf16 "dev")) ()
      (sampleWorld (written 0x61) (written 0x62)) = some ((.ok (), ()),
        { sampleWorld (written 0x61) (written 0x62) with
          secret := some (samplePatched (written 0x61) (written 0x62)) }) from rfl)
    (show _ = some ⟨utf16 "1", some [(operatorKey, written 0x61)]⟩ from rfl) rfl
      (by simp [samplePatched]) rfl rfl (show decodeUtf8 _ = some (sampleText (written 0x62)) by decide +kernel)

/-- The operator's password, less the newline `secrets.mjs` writes after it,
is patched in and refused. -/
theorem patched_refused : ¬ ∀ (bufferText fileText : Bytes → JString) (host : Host) (environment : JString)
    (w w' : World) (out : Except Failure Unit × Unit) (secret secret' : Secret) (operator value : Bytes),
    ReadsUtf8 bufferText → ReadsFile fileText →
    (decodeUtf8 operator).isSome = true → (decodeUtf8 value).isSome = true →
    Program.exec host.handle (provisionSecret bufferText environment) () w = some (out, w') →
    w.secret = some secret → w'.secret = some secret' → secret' ≠ secret →
    secret.get operatorKey = some operator → (host.secretsMjs w.files).2 appKey = some value →
      (appPassword fileText secret').isSome = true := by
  intro h
  have haccepted := h sampleText sampleText sampleHost (utf16 "dev") (sampleWorld (written 0x61) (bare 0x61))
    { sampleWorld (written 0x61) (bare 0x61) with secret := some (samplePatched (written 0x61) (bare 0x61)) }
    (.ok (), ()) ⟨utf16 "1", some [(operatorKey, written 0x61)]⟩ (samplePatched (written 0x61) (bare 0x61))
    (written 0x61) (bare 0x61) sampleText_reads sampleText_readsFile (by decide +kernel)
    (by decide +kernel) rfl rfl rfl (by simp [samplePatched]) rfl rfl
  have hrefused : appPassword sampleText (samplePatched (written 0x61) (bare 0x61)) = none := by
    decide +kernel
  rw [hrefused] at haccepted
  cases haccepted

end CartyxInfra.Credentials
