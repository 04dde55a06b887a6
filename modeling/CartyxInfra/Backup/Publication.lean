/-
What the bucket holds: every completion object has its archive beside it, with
the checksum it records.

Two parts of a run write to the bucket. Publication puts the archive, reads it
back, and puts the completion object last; retention deletes the completion
object first. Every key is put once, by the run it is named after, so what
retention has seen and deleted does not come back.
-/
import CartyxInfra.Lib.RelyGuarantee
import CartyxInfra.Backup.Calls
import CartyxInfra.Backup.Protocol

namespace CartyxInfra.Backup

open JString

variable {setup : Setup} {p q : PodName} {w w' : World} {α : Type}

/-! ## Keys -/

/-- The archive's key, by its name without the extension. -/
def archiveOf (name : JString) : JString := name ++ utf16 ".tar.gz"

/-- The completion object's key, by the same name. -/
def completionOf (name : JString) : JString := name ++ utf16 ".tar.gz.json"

/-- What a run's objects are named after. -/
def Setup.name (setup : Setup) (p : PodName) : JString := setup.pre ++ setup.id p

theorem Key_eq : setup.Key p = archiveOf (setup.name p) := rfl

theorem Key_json : setup.Key p ++ utf16 ".json" = completionOf (setup.name p) := by
  have h : utf16 ".tar.gz" ++ utf16 ".json" = utf16 ".tar.gz.json" := by decide
  rw [Key_eq, archiveOf, completionOf, List.append_assoc, h]

theorem archiveOf_ne (name name' : JString) : archiveOf name ≠ completionOf name' := by
  intro h
  have hlast := congrArg List.getLast? h
  have hz : (utf16 ".tar.gz").getLast? = some 122 := by decide
  have hn : (utf16 ".tar.gz.json").getLast? = some 110 := by decide
  simp [archiveOf, completionOf, List.getLast?_append, hz, hn] at hlast

theorem archiveOf_inj {name name' : JString} (h : archiveOf name = archiveOf name') : name = name' :=
  List.append_cancel_right h

theorem completionOf_inj {name name' : JString} (h : completionOf name = completionOf name') : name = name' :=
  List.append_cancel_right h

theorem completionOf_of_endsWith {key : JString} (h : endsWith key (utf16 ".tar.gz.json") = true) :
    ∃ name, key = completionOf name := by
  obtain ⟨name, rfl⟩ := List.isSuffixOf_iff_suffix.mp h
  exact ⟨name, rfl⟩

/-- The sliced key of a completion object is its archive's. -/
theorem archiveKey_completionOf (name : JString) : archiveKey (completionOf name) = archiveOf name := by
  have hlength : (completionOf name).length - 5 = name.length + 7 := by
    have : (utf16 ".tar.gz.json").length = 12 := by decide
    simp [completionOf, this]
  rw [archiveKey, hlength, completionOf, List.take_length_add_append]
  rfl

theorem name_inj (hid : Function.Injective setup.id) (h : setup.name p = setup.name q) : p = q :=
  hid (List.append_cancel_left h)

/-! ## Completion objects and their archives -/

/-- Every completion object has its archive, and records its checksum. -/
def Sealed (setup : Setup) (b : Bucket) : Prop :=
  ∀ name completion, b.get (completionOf name) = some (.json completion) →
    ∃ content, b.get (archiveOf name) = some (.bytes content) ∧ setup.sha256 content = completion.sha256

section

variable {b b' : Bucket} {name : JString} {x : Option Body}

/-- A completion object changes: a new one needs its archive. -/
theorem Sealed.completion (h : Sealed setup b)
    (hb : ∀ k, b'.get k = if k = completionOf name then x else b.get k)
    (hx : ∀ completion, x = some (.json completion) →
      ∃ content, b.get (archiveOf name) = some (.bytes content) ∧ setup.sha256 content = completion.sha256) :
    Sealed setup b' := by
  intro name' completion hc
  rw [hb] at hc
  rw [hb, if_neg (archiveOf_ne name' name)]
  split at hc
  · next he =>
    obtain rfl := completionOf_inj he
    exact hx completion hc
  · exact h name' completion hc

/-- An archive without a completion object changes. -/
theorem Sealed.archive (h : Sealed setup b) (hb : ∀ k, b'.get k = if k = archiveOf name then x else b.get k)
    (hx : b.get (completionOf name) = none) : Sealed setup b' := by
  intro name' completion hc
  rw [hb, if_neg (archiveOf_ne name name').symm] at hc
  have hne : archiveOf name' ≠ archiveOf name := by
    intro he
    obtain rfl := archiveOf_inj he
    rw [hx] at hc
    cases hc
  rw [hb, if_neg hne]
  exact h name' completion hc

end

/-! ## The protocol -/

/-- The keys a run puts objects under. -/
def Own (setup : Setup) (p : PodName) (key : JString) : Prop :=
  key = archiveOf (setup.name p) ∨ key = completionOf (setup.name p)

/-- The bucket at any time. -/
structure BucketInv (setup : Setup) (w : World) : Prop where
  completions : Sealed setup w.bucket
  written : ∀ o ∈ w.bucket, o.key ∈ w.written
  unborn : ∀ p, w.life p = .unborn → ∀ key, Own setup p key → key ∉ w.written

/-- What the steps of the others leave a run. -/
structure Elsewhere (setup : Setup) (p : PodName) (w w' : World) : Prop where
  life : w'.life p = w.life p
  fresh : ∀ key, Own setup p key → key ∈ w'.written → key ∈ w.written
  grows : ∀ key ∈ w.written, key ∈ w'.written
  once : ∀ key ∈ w.written, w'.bucket.get key = w.bucket.get key ∨ w'.bucket.get key = none
  /-- An archive is left alone until it is published. -/
  archive : completionOf (setup.name p) ∉ w.written →
    w'.bucket.get (archiveOf (setup.name p)) = w.bucket.get (archiveOf (setup.name p))

/-- The runs looked at: a completion object is stored as it was sent. -/
def intact (_ : World) : Move PodName Call Choice Env → Bool
  | .act _ (.putObject _ (.json completion)) choice => choice.body (.json completion) == .json completion
  | _ => true

/-- Runs that leave each other's objects alone. -/
def publication (setup : Setup) : Protocol PodName Call World where
  inv := BucketInv setup
  guarantee p w w' := ∀ q, q ≠ p → Elsewhere setup q w w'
  pending _ _ _ := True

/-- The bucket and its history are as they were. -/
structure SameBucket (w w' : World) : Prop where
  bucket : w'.bucket = w.bucket
  written : w'.written = w.written
  life : w'.life = w.life

theorem BucketInv.same (h : BucketInv setup w) (hs : SameBucket w w') : BucketInv setup w' := by
  refine ⟨?_, ?_, ?_⟩
  · rw [hs.bucket]
    exact h.completions
  · rw [hs.bucket, hs.written]
    exact h.written
  · rw [hs.written, hs.life]
    exact h.unborn

theorem SameBucket.elsewhere (h : SameBucket w w') : Elsewhere setup p w w' where
  life := by rw [h.life]
  fresh _ _ hk := by rwa [h.written] at hk
  grows _ hk := by rwa [h.written]
  once _ _ := .inl (by rw [h.bucket])
  archive _ := by rw [h.bucket]

/-- The kinds of calls that leave the bucket alone. -/
def bucketless : List Kind := [.read, .observe, .lease, .scale, .suspend, .status, .startTar, .exitTar]

theorem perform_sameBucket {c : Call} {choice : Choice} {r : c.Ret} (hc : c.kind ∈ bucketless)
    (h : perform p c choice w = some (r, w')) : SameBucket w w' := by
  rcases perform_cases h with rfl | rfl
  · exact ⟨rfl, rfl, rfl⟩
  · cases c with
    | putObject | deleteObject => simp [Call.kind, bucketless] at hc
    | _ => exact ⟨rfl, rfl, rfl⟩

theorem env_sameBucket {e : Env} (h : env e w = some w') : SameBucket w w' := by
  cases e with
  | tick | cancel | report | podCount =>
    cases h
    exact ⟨rfl, rfl, rfl⟩
  | begin | upgrade | finish =>
    simp only [env] at h
    split at h
    · cases h
      exact ⟨rfl, rfl, rfl⟩
    · cases h

/-! ## Writes -/

section

variable {key : JString} {body : Body}

theorem Own.unique (hid : Function.Injective setup.id) (hp : Own setup p key) (hq : Own setup q key) :
    p = q := by
  rcases hp with rfl | rfl <;> rcases hq with h | h
  · exact name_inj hid (archiveOf_inj h)
  · exact absurd h (archiveOf_ne _ _)
  · exact absurd h.symm (archiveOf_ne _ _)
  · exact name_inj hid (completionOf_inj h)

/-- A run puts an object under a key of its own. -/
theorem BucketInv.putObject (hid : Function.Injective setup.id) (h : BucketInv setup w)
    (hl : w.life p ≠ .unborn) (hown : Own setup p key) (hs : Sealed setup (w.putObject key body).bucket) :
    BucketInv setup (w.putObject key body) := by
  refine ⟨hs, fun o ho => ?_, fun q hq k hk hw => ?_⟩
  · rcases Bucket.mem_put ho with rfl | ho
    · exact List.mem_cons_self ..
    · exact List.mem_cons_of_mem _ (h.written o ho)
  · rcases List.mem_cons.mp hw with rfl | hw
    · obtain rfl := hk.unique hid hown
      exact hl hq
    · exact h.unborn q hq k hk hw

theorem BucketInv.deleteObject (h : BucketInv setup w) (hs : Sealed setup (w.deleteObject key).bucket) :
    BucketInv setup (w.deleteObject key) :=
  ⟨hs, fun o ho => h.written o (Bucket.mem_delete ho), h.unborn⟩

theorem elsewhere_putObject (hid : Function.Injective setup.id) (hown : Own setup p key)
    (hfresh : key ∉ w.written)
    (hq : q ≠ p) : Elsewhere setup q w (w.putObject key body) where
  life := rfl
  fresh k hk hw := by
    rcases List.mem_cons.mp hw with rfl | hw
    · exact absurd (hk.unique hid hown) hq
    · exact hw
  grows _ hk := List.mem_cons_of_mem _ hk
  once k hk := by
    have hne : k ≠ key := fun he => hfresh (he ▸ hk)
    exact .inl (by rw [World.putObject, Bucket.get_put, if_neg hne])
  archive _ := by
    have hne : archiveOf (setup.name q) ≠ key := fun he => hq (Own.unique hid (.inl he.symm) hown)
    rw [World.putObject, Bucket.get_put, if_neg hne]

/-- An archive is deleted when it was published. -/
theorem elsewhere_deleteObject
    (h : ∀ name, key = archiveOf name → completionOf name ∈ w.written) :
    Elsewhere setup q w (w.deleteObject key) where
  life := rfl
  fresh _ _ hk := hk
  grows _ hk := hk
  once k _ := by
    rw [World.deleteObject, Bucket.get_delete]
    split
    · exact .inr rfl
    · exact .inl rfl
  archive hu := by
    have hne : archiveOf (setup.name q) ≠ key := fun he => hu (h _ he.symm)
    rw [World.deleteObject, Bucket.get_delete, if_neg hne]

end

/-! ## Programs -/

/-- A program that keeps to the protocol, with what it needs and leaves. -/
abbrev Publishes (setup : Setup) (p : PodName) (A : World → Prop) (m : Js α) (Q : α → World → Prop) : Prop :=
  Triple (publication setup) machine intact p (fun _ => A) m (fun a _ => Q a) fun _ _ _ => True

/-- An assertion that the others leave. -/
def Kept (setup : Setup) (p : PodName) (A : World → Prop) : Prop :=
  ∀ w w', Elsewhere setup p w w' → A w → A w'

theorem Kept.stable {A : World → Prop} (h : Kept setup p A) :
    (publication setup).Stable machine intact p A := by
  rintro w w' ⟨-, -, ⟨q, hq, hg⟩ | ⟨e, he, -⟩⟩ ha
  · exact h w w' (hg p (Ne.symm hq)) ha
  · exact h w w' (env_sameBucket he).elsewhere ha

theorem Kept.const {c : Prop} : Kept setup p fun _ => c := fun _ _ _ h => h

theorem Publishes.bucketless {m : Js α} (hm : Makes bucketless false m) {A : World → Prop}
    (hA : Kept setup p A) :
    Publishes setup p A m fun _ => A := by
  refine Triple.conseq (Triple.calls hm (fun _ => hA.stable) (fun _ _ _ _ h => h) ?_) (fun _ _ _ h => h)
    (fun _ _ _ h => h) fun _ _ _ _ => trivial
  refine fun c s w hc hw ha => ⟨trivial, fun choice r w' hr _ => ?_⟩
  have hs := perform_sameBucket hc hr
  exact ⟨hw.same hs, fun q _ => hs.elsewhere, hA w w' hs.elsewhere ha⟩

theorem Publishes.write {c : Call} {next : c.Ret → Js Unit} {A B : World → Prop} (hc : Writes c next)
    (hA : Kept setup p A)
    (h : ∀ w choice, BucketInv setup w → A w → intact w (.act p c choice) = true →
      BucketInv setup (effect p c choice w) ∧ (∀ q, q ≠ p → Elsewhere setup q w (effect p c choice w)) ∧
        B (effect p c choice w)) :
    Publishes setup p A (Program.make c >>= next) fun _ => B := by
  refine Triple.conseq (triple_write (B := fun _ => B) hc (fun _ => hA.stable) (fun _ _ _ _ => trivial) ?_ ?_)
    (fun _ _ _ h => h) (fun _ _ _ h => h) fun _ _ _ _ => trivial
  · exact fun w _ q _ => SameBucket.elsewhere ⟨rfl, rfl, rfl⟩
  · exact fun s w choice hw ha _ _ hal => h w choice hw ha hal

/-- A read that says something of the world, or throws. -/
theorem Publishes.read {β : Type} {c : Call} {next : c.Ret → Js β} {A : World → Prop} {Q : β → World → Prop}
    (hc : c.kind ∈ Backup.bucketless) (hA : Kept setup p A)
    (h : ∀ choice w r w', BucketInv setup w → A w → perform p c choice w = some (r, w') →
      (∃ b, next r = pure b ∧ Q b w') ∨ ∃ message, next r = fail message) :
    Publishes setup p A (Program.make c >>= next) Q := by
  refine triple_call (fun _ => hA.stable) fun s w hw ha => ⟨trivial, fun choice r w' hr _ => ?_⟩
  have hs := perform_sameBucket hc hr
  exact ⟨hw.same hs, fun q _ => hs.elsewhere,
    (h choice w r w' hw ha hr).imp id fun ⟨message, hn⟩ => ⟨message, hn, trivial⟩⟩

/-! ## Publication -/

/-- A run that has put nothing yet. -/
def Blank (setup : Setup) (p : PodName) (w : World) : Prop :=
  w.life p ≠ .unborn ∧ ∀ key, Own setup p key → key ∉ w.written

/-- A run that has not put its completion object. -/
def Unpublished (setup : Setup) (p : PodName) (w : World) : Prop :=
  w.life p ≠ .unborn ∧ completionOf (setup.name p) ∉ w.written

/-- A run whose archive was read back with a checksum. -/
def Checked (setup : Setup) (p : PodName) (sha256 : JString) (w : World) : Prop :=
  Unpublished setup p w ∧
    ∃ content, w.bucket.get (archiveOf (setup.name p)) = some (.bytes content) ∧ setup.sha256 content = sha256

theorem kept_blank : Kept setup p (Blank setup p) :=
  fun _ _ he ⟨hl, hf⟩ => ⟨by rw [he.life]; exact hl, fun k hk hw => hf k hk (he.fresh k hk hw)⟩

theorem kept_unpublished : Kept setup p (Unpublished setup p) :=
  fun _ _ he ⟨hl, hf⟩ => ⟨by rw [he.life]; exact hl, fun hw => hf (he.fresh _ (.inr rfl) hw)⟩

theorem kept_archive (body : Body) : Kept setup p fun w =>
    Unpublished setup p w ∧ w.bucket.get (archiveOf (setup.name p)) = some body :=
  fun w w' he ⟨hu, hb⟩ => ⟨kept_unpublished w w' he hu, by rw [he.archive hu.2]; exact hb⟩

theorem kept_checked {sha256 : JString} : Kept setup p (Checked setup p sha256) :=
  fun w w' he ⟨hu, content, hc, hs⟩ =>
    ⟨kept_unpublished w w' he hu, content, by rw [he.archive hu.2]; exact hc, hs⟩

/-- A completion object that was never put is not there. -/
theorem Unpublished.none (h : Unpublished setup p w) (hw : BucketInv setup w) :
    w.bucket.get (completionOf (setup.name p)) = none := by
  cases hg : w.bucket.get (completionOf (setup.name p)) with
  | none => rfl
  | some body =>
    obtain ⟨o, ho, hk⟩ := Bucket.mem_get hg
    exact absurd (hk ▸ hw.written o ho) h.2

theorem publishes_archive (hid : Function.Injective setup.id) {content : Bytes} :
    Publishes setup p (Blank setup p) (putObject (setup.Key p) (.bytes content))
      fun _ => Unpublished setup p := by
  refine Publishes.write writes_putObject kept_blank fun w choice hw hb _ => ?_
  have hu : Unpublished setup p w := ⟨hb.1, hb.2 _ (.inr rfl)⟩
  refine ⟨hw.putObject hid hb.1 (.inl rfl) ?_,
    fun q hq => elsewhere_putObject hid (.inl rfl) (hb.2 _ (.inl rfl)) hq,
    hb.1, ?_⟩
  · exact hw.completions.archive (fun k => w.bucket.get_put _ k) (hu.none hw)
  · simp only [effect, World.putObject, List.mem_cons, not_or]
    exact ⟨(archiveOf_ne _ _).symm, hu.2⟩

theorem publishes_readback :
    Publishes setup p (Unpublished setup p) (getObject (setup.Key p))
      fun body w => Unpublished setup p w ∧ w.bucket.get (archiveOf (setup.name p)) = some body := by
  have hkind : (Call.getObject (setup.Key p)).kind ∈ bucketless := by simp [Call.kind, bucketless]
  refine Publishes.read hkind kept_unpublished fun choice w r w' hw hu hr => ?_
  have hs := perform_sameBucket hkind hr
  have hu' := kept_unpublished w w' hs.elsewhere hu
  simp only [perform] at hr
  split at hr
  · next body hb =>
    simp only [Fallible.read, Fallible.reply, Option.some.injEq, Prod.mk.injEq] at hr
    obtain ⟨rfl, rfl⟩ := hr
    split
    · exact .inl ⟨body, rfl, hu', hb⟩
    · next message _ => exact .inr ⟨message, rfl⟩
  · simp only [Fallible.refuse, Option.some.injEq, Prod.mk.injEq] at hr
    obtain ⟨rfl, rfl⟩ := hr
    exact .inr ⟨_, rfl⟩

theorem publishes_completion (hid : Function.Injective setup.id) (completion : Completion) :
    Publishes setup p (Checked setup p completion.sha256)
      (putObject (setup.Key p ++ utf16 ".json") (.json completion)) fun _ _ => True := by
  rw [Key_json]
  refine Publishes.write writes_putObject kept_checked fun w choice hw ⟨hu, content, hc, hsha⟩ hal => ?_
  have hbody : choice.body (.json completion) = .json completion := by simpa [intact] using hal
  refine ⟨hw.putObject hid hu.1 (.inr rfl) ?_, fun q hq => elsewhere_putObject hid (.inr rfl) hu.2 hq,
    trivial⟩
  refine hw.completions.completion (fun k => w.bucket.get_put _ k) fun c hx => ?_
  obtain rfl : completion = c := by simpa [hbody] using hx
  exact ⟨content, hc, hsha⟩

theorem publishes_publish (hid : Function.Injective setup.id) {manifest : Manifest} {content : Bytes} :
    Publishes setup p (Blank setup p) (publish setup p manifest content) fun _ _ => True := by
  refine Triple.bind (Publishes.bucketless (makes_files (by decide)) kept_blank) fun _ => ?_
  refine Triple.bind (publishes_archive hid) fun _ => Triple.bind publishes_readback fun readback => ?_
  cases readback with
  | json => exact Triple.throw _ fun _ _ _ => trivial
  | bytes stored =>
    refine Triple.bind (Triple.throwIf fun _ _ _ => trivial) fun _ => ?_
    refine Triple.extract (c := setup.sha256 stored = setup.sha256 content) (fun s w h => by simpa using h.2)
      fun hsha => ?_
    refine Triple.bind (Q := fun _ _ => Checked setup p (setup.sha256 content)) (Triple.conseq
      (Publishes.bucketless (makes_checkpoint (by decide)) (kept_archive (.bytes stored)))
        (fun _ _ _ h => h.1)
      (fun _ s w h => ⟨h.1, stored, h.2, hsha⟩) fun _ _ _ h => h) fun _ => ?_
    exact Triple.bind (publishes_completion hid ⟨manifest, _, content.length, setup.Key p⟩) fun _ =>
      Triple.pure _ fun _ _ h => h

/-! ## Retention -/

/-- Something was put under a key. -/
def Put (key : JString) (w : World) : Prop := key ∈ w.written

/-- What was put under a key is deleted. -/
def Gone (key : JString) (w : World) : Prop := Put key w ∧ w.bucket.get key = none

theorem kept_put {key : JString} : Kept setup p (Put key) := fun _ _ he h => he.grows key h

theorem kept_gone {key : JString} : Kept setup p (Gone key) := by
  refine fun w w' he ⟨hp, hg⟩ => ⟨he.grows key hp, ?_⟩
  rcases he.once key hp with h | h
  · rw [h, hg]
  · exact h

/-- Every listed key was put. -/
def Listed (entries : List Entry) (w : World) : Prop := ∀ e ∈ entries, Put e.key w

theorem kept_listed {entries : List Entry} : Kept setup p (Listed entries) :=
  fun w w' he h e hm => kept_put w w' he (h e hm)

theorem publishes_expire {entries : List Entry} {entry : Entry} (hm : entry ∈ entries)
    (he : endsWith entry.key (utf16 ".tar.gz.json") = true) {pre : JString} :
    Publishes setup p (Listed entries) (expire pre entry) fun _ => Listed entries := by
  obtain ⟨name, hname⟩ := completionOf_of_endsWith he
  unfold expire
  simp only [hname, archiveKey_completionOf]
  refine Triple.bind (Triple.post (Triple.throwIf fun _ _ _ => trivial) fun _ _ _ h => h.1) fun _ => ?_
  refine Triple.bind (Publishes.write writes_deleteObject kept_listed
    (B := fun w => Listed entries w ∧ Gone (completionOf name) w) ?_) fun _ => ?_
  · intro w choice hw hl _
    refine ⟨hw.deleteObject ?_, fun q _ => elsewhere_deleteObject fun name' hn => ?_, hl,
      hname ▸ hl entry hm, ?_⟩
    · exact hw.completions.completion (fun k => w.bucket.get_delete _ k) nofun
    · exact absurd hn.symm (archiveOf_ne name' name)
    · simp only [effect, World.deleteObject, Bucket.get_delete, if_true]
  · have hkept : Kept setup p fun w => Listed entries w ∧ Gone (completionOf name) w :=
      fun w w' he h => ⟨kept_listed w w' he h.1, kept_gone w w' he h.2⟩
    refine Publishes.write writes_deleteObject hkept fun w choice hw ⟨hl, hp, hg⟩ _ => ?_
    refine ⟨hw.deleteObject ?_, fun q _ => elsewhere_deleteObject fun name' hn => ?_, hl⟩
    · exact hw.completions.archive (fun k => w.bucket.get_delete _ k) hg
    · obtain rfl := archiveOf_inj hn
      exact hp

theorem publishes_retire {pre : JString} (entries : List Entry) (weeks : List Int)
    (he : ∀ e ∈ entries, endsWith e.key (utf16 ".tar.gz.json") = true) :
    Publishes setup p (Listed entries) (retire pre entries weeks) fun _ _ => True := by
  induction entries generalizing weeks with
  | nil => exact Triple.pure _ fun _ _ _ => trivial
  | cons entry rest ih =>
    refine Triple.bind (Publishes.bucketless (makes_now (by decide)) kept_listed) fun time => ?_
    refine Triple.bind (Q := fun _ _ w => Listed (entry :: rest) w) ?_ fun _ => ?_
    · unfold expireUnless
      split
      · exact Triple.pure _ fun _ _ h => h
      · exact publishes_expire (List.mem_cons_self ..) (he entry (List.mem_cons_self ..))
    · refine Triple.pre (ih _ fun e hm => he e (List.mem_cons_of_mem _ hm)) ?_
      exact fun s w h e hm => h e (List.mem_cons_of_mem _ hm)

theorem publishes_listEntries {pre : JString} :
    ∀ (pages : Nat) (token : Option JString) (entries : List Entry),
    Publishes setup p (Listed entries) (listEntries pre pages token entries) Listed
  | 0, _, _ => Triple.throw _ fun _ _ _ => trivial
  | pages + 1, token, entries => by
    have hpage : Publishes setup p (Listed entries) (listObjects pre token)
        fun page => Listed (entries ++ page.contents) := by
      refine Publishes.read (c := .listObjects pre token) (by simp [Call.kind, bucketless]) kept_listed
        fun choice w r w' hw hl hr => ?_
      simp only [perform] at hr
      split at hr
      · cases hr
      · simp only [Fallible.read, Fallible.reply, Option.some.injEq, Prod.mk.injEq] at hr
        obtain ⟨rfl, rfl⟩ := hr
        split
        · refine .inl ⟨_, rfl, fun e he => ?_⟩
          rcases List.mem_append.mp he with he | he
          · exact hl e he
          · obtain ⟨o, ho, -, rfl⟩ := Bucket.mem_page he
            exact hw.written o ho
        · next message _ => exact .inr ⟨message, rfl⟩
    refine Triple.bind hpage fun page => ?_
    split
    · exact Triple.pure _ fun _ _ h => h
    · exact publishes_listEntries pages _ _

theorem publishes_retireOldBackups :
    Publishes setup p (fun _ => True) (retireOldBackups setup) fun _ _ => True := by
  refine Triple.bind (Triple.pre (publishes_listEntries setup.pages none []) fun _ _ _ => nofun)
    fun entries => ?_
  have hm : ∀ e, e ∈ manifests entries ↔
      e ∈ entries ∧ endsWith e.key (utf16 ".tar.gz.json") = true := fun e => by
    simp [manifests, List.mem_mergeSort]
  refine Triple.pre (publishes_retire (manifests entries) [] fun e he => ((hm e).mp he).2) ?_
  exact fun s w h e he => h e ((hm e).mp he).1

/-! ## Runs -/

theorem publishes_backup (hid : Function.Injective setup.id) {lease : Lease} :
    Publishes setup p (Blank setup p) (backup setup p lease) fun _ _ => True := by
  have before : ∀ {α : Type} {m : Js α}, Makes bucketless false m →
      Publishes setup p (Blank setup p) m fun _ => Blank setup p :=
    fun hm => Publishes.bucketless hm kept_blank
  have after : ∀ {α : Type} {m : Js α}, Makes bucketless false m →
      Publishes setup p (fun _ => True) m fun _ _ => True := fun hm => Publishes.bucketless hm .const
  refine Triple.bind (before (.throwIf _ _)) fun _ => ?_
  refine Triple.bind (before (makes_preflight (by decide) (by decide))) fun _ => ?_
  refine Triple.bind (before (makes_acquire (by decide))) fun _ => ?_
  refine Triple.bind (before (makes_now (by decide))) fun lastAttempt => ?_
  refine Triple.bind (before (makes_patchStatus (by decide))) fun _ => ?_
  refine Triple.bind (before makes_needsRecovery) fun _ => ?_
  refine Triple.bind (before (makes_suspend (by decide) (by decide) (by decide))) fun read => ?_
  refine Triple.bind (before (makes_scaleDown (by decide) (by decide))) fun _ => ?_
  refine Triple.bind (before (makes_scaleDown (by decide) (by decide))) fun _ => ?_
  refine Triple.bind (before (makes_archive (by decide) (by decide) (by decide) (by decide))) fun out => ?_
  refine Triple.bind (before (makes_resumeOriginal (by decide) (by decide) (by decide) (by decide)))
    fun _ => ?_
  refine Triple.bind (before makes_needsRecovery) fun _ => ?_
  refine Triple.bind (before (makes_patchStatus (by decide))) fun _ => ?_
  refine Triple.bind (publishes_publish hid) fun completion => ?_
  refine Triple.bind publishes_retireOldBackups fun _ => ?_
  refine Triple.bind (after (makes_now (by decide))) fun lastSuccess => ?_
  exact after (makes_patchStatus (by decide))

theorem publishes_main (hid : Function.Injective setup.id) {mode : Mode} :
    Publishes setup p (Blank setup p) (main setup p mode) fun _ _ => True := by
  have hbody : Publishes setup p (Blank setup p) (body setup p mode) fun _ _ => True := by
    refine Triple.bind (Publishes.bucketless (makes_call (by decide) .await) kept_blank) fun lease => ?_
    cases mode with
    | backup => exact publishes_backup hid
    | recover =>
      refine Triple.pre (Publishes.bucketless (makes_recover ?_ ?_ ?_ ?_ ?_ ?_) .const) fun _ _ _ => trivial
      all_goals decide
  refine Triple.bind (Q := fun _ _ _ => True) (Triple.tryCatch hbody fun e => ?_) fun _ => ?_
  · cases e with
    | error => exact Publishes.bucketless (makes_failed (by decide)) .const
    | exit => exact Triple.throw _ fun _ _ _ => trivial
  · refine Publishes.bucketless (makes_release ?_ ?_ ?_ ?_ ?_) .const
    all_goals decide

/-! ## Pools -/

/-- A run's first and last moments, as the bucket sees them. -/
theorem BucketInv.of_life (h : BucketInv setup w) {life : Life} (hl : life ≠ .unborn) :
    BucketInv setup { w with life := Function.update w.life p life } := by
  refine ⟨h.completions, h.written, fun q hq => h.unborn q ?_⟩
  by_cases he : q = p
  · subst he
    exact absurd (by simpa using hq) hl
  · simpa [he] using hq

theorem elsewhere_life {life : Life} (hq : q ≠ p) :
    Elsewhere setup q w { w with life := Function.update w.life p life } :=
  ⟨Function.update_of_ne hq .., fun _ _ h => h, fun _ h => h, fun _ _ => .inl rfl, fun _ => rfl⟩

theorem publication_environment (hid : Function.Injective setup.id) :
    (publication setup).Environment machine intact (program setup) fun _ _ _ => True where
  start p mode w w' hw h := by
    obtain ⟨hl, rfl⟩ := start_eq h
    have hlive : Life.live ≠ .unborn := nofun
    have hw' : BucketInv setup { w with life := Function.update w.life p .live } := hw.of_life hlive
    refine ⟨hw', fun q hq => elsewhere_life hq, (publishes_main hid).script hw' ⟨?_, hw.unborn p hl⟩
      fun _ _ _ => trivial⟩
    simp
  stop p w hw := ⟨hw.of_life nofun, fun q hq => elsewhere_life hq⟩
  env _ _ _ hw h _ := hw.same (env_sameBucket h)
  stable _ _ := .const

/-- **Publication and retention.** Whatever fails, whatever archive is spoiled
on its way, and wherever runs are killed: a completion object that is there has
its archive there, with the checksum it records. -/
theorem completion_sealed (hid : Function.Injective setup.id) (h₀ : BucketInv setup w) {s : Runs}
    (h : Reachable machine (program setup) intact w s) :
    ∀ name completion, s.world.bucket.get (name ++ utf16 ".tar.gz.json") = some (.json completion) →
      ∃ content, s.world.bucket.get (name ++ utf16 ".tar.gz") = some (.bytes content) ∧
        setup.sha256 content = completion.sha256 :=
  (Protocol.sound (publication_environment hid) h₀ h).inv.completions

/-! ## A backup that is published -/

/-- A backup none of whose calls fail, from `tar` to the choice for its last put. -/
def toCompletion (p : PodName) (choice : Choice) : List (Event PodName Mode Choice Env) :=
  toTar p ++ acts p (fine 14 ++ [choice])

/-- There is a completion object, and not some bytes. -/
def isCompletion : Option Body → Bool
  | some (.json _) => true
  | _ => false

theorem sampleSetup_id : Function.Injective sampleSetup.id := by
  rintro ⟨name, hn⟩ ⟨name', hn'⟩ h
  obtain rfl : name = name' := by simpa [Setup.id, sampleSetup] using h
  rfl

theorem atRest_bucketInv : BucketInv sampleSetup atRest := by
  refine ⟨?_, ?_, ?_⟩
  · intro name completion hc
    cases hc
  · intro o ho
    cases ho
  · intro p _ key _ hk
    cases hk

theorem completion_sealed_sample : ∃ s : Runs,
    Pool.run machine (program sampleSetup) intact ⟨atRest, fun _ => none⟩ (toCompletion second {}) = some s ∧
    ∃ completion content,
      s.world.bucket.get (sampleSetup.name second ++ utf16 ".tar.gz.json") = some (.json completion) ∧
      s.world.bucket.get (sampleSetup.name second ++ utf16 ".tar.gz") = some (.bytes content) ∧
      sampleSetup.sha256 content = completion.sha256 := by
  have hrun : ((Pool.run machine (program sampleSetup) intact ⟨atRest, fun _ => none⟩
      (toCompletion second {})).map fun s =>
        isCompletion (s.world.bucket.get (sampleSetup.name second ++ utf16 ".tar.gz.json"))) =
      some true := by
    decide +kernel
  obtain ⟨s, hs, hc⟩ := Option.map_eq_some_iff.mp hrun
  obtain ⟨completion, hg⟩ : ∃ completion,
      s.world.bucket.get (sampleSetup.name second ++ utf16 ".tar.gz.json") = some (.json completion) := by
    unfold isCompletion at hc
    split at hc
    · next completion hg => exact ⟨completion, hg⟩
    · cases hc
  obtain ⟨content, ha, hsha⟩ :=
    completion_sealed sampleSetup_id atRest_bucketInv (Pool.run_sound hs)
      (sampleSetup.name second) completion hg
  exact ⟨s, hs, completion, content, hg, ha, hsha⟩

/-- A completion object with a digit of its checksum lost. -/
def spoiled : Completion where
  manifest := ⟨.dev, sampleSetup.id second, 0, [], [], none, none, none⟩
  sha256 := utf16 "0"
  bytes := 0
  key := sampleSetup.Key second

/-- The completion object is not read back: spoiled on its way, it stays. -/
theorem completion_spoiled : ¬ ∀ (setup : Setup) (w : World) (s : Runs), Function.Injective setup.id →
    BucketInv setup w → Reachable machine (program setup) always w s →
      ∀ name completion, s.world.bucket.get (name ++ utf16 ".tar.gz.json") = some (.json completion) →
        ∃ content, s.world.bucket.get (name ++ utf16 ".tar.gz") = some (.bytes content) ∧
          setup.sha256 content = completion.sha256 := by
  intro h
  have hrun : ((Pool.run machine (program sampleSetup) always ⟨atRest, fun _ => none⟩
      (toCompletion second { stored := some (.json spoiled) })).map fun s =>
        (s.world.bucket.get (sampleSetup.name second ++ utf16 ".tar.gz.json"),
          s.world.bucket.get (sampleSetup.name second ++ utf16 ".tar.gz"))) =
      some (some (.json spoiled), some (.bytes [])) := by decide +kernel
  obtain ⟨s, hs, hw⟩ := Option.map_eq_some_iff.mp hrun
  simp only [Prod.mk.injEq] at hw
  obtain ⟨content, ha, hsha⟩ := h sampleSetup atRest s sampleSetup_id atRest_bucketInv (Pool.run_sound hs)
    (sampleSetup.name second) spoiled hw.1
  obtain rfl : [] = content := by simpa [hw.2] using ha
  exact absurd hsha (by decide)

end CartyxInfra.Backup
