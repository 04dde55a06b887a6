/-
A backup run ends with a status that agrees with the bucket.

Whatever fails before the completion manifest is put, the run ends as failed,
with the last success as it was. The catch clause says the same of what fails
afterwards, when the manifest is there: a put that throws though it was
stored, or a call of the retention of older backups. `outcome_reported` is
about runs without these, whose last status no late `recover` run overwrites.
-/
import CartyxInfra.Backup.Reporting

namespace CartyxInfra.Backup

open JString

variable {setup : Setup} {p q : PodName} {before : Status} {w w' : World} {α : Type}

/-! ## A run and its report -/

/-- A run that has taken no Lease and published nothing. -/
structure Untaken (setup : Setup) (p : PodName) (w : World) : Prop where
  live : w.life p = .live
  took : w.took p = none
  absent : w.bucket.get (setup.manifestKey p) = none

/-- The Lease's owner, the last success as it found it. -/
structure Taken (p : PodName) (before : Status) (w : World) : Prop where
  owner : Owner w p
  took : w.took p = some before
  record : w.status.record = before.record

/-- An owner that has told of itself, and published nothing. -/
structure Absent (setup : Setup) (p : PodName) (before : Status)
    (w : World) : Prop extends Taken p before w where
  reporter : w.status.owner = some p
  absent : w.bucket.get (setup.manifestKey p) = none

/-- An owner whose manifest is there, put at a time. -/
structure Present (setup : Setup) (p : PodName) (before : Status) (time : Int) (completion : Completion)
    (w : World) : Prop extends Taken p before w where
  reporter : w.status.owner = some p
  passed : time ≤ w.clock
  there : ∃ o ∈ w.bucket, o.key = setup.manifestKey p
  only : ∀ o ∈ w.bucket, o.key = setup.manifestKey p → o = ⟨setup.manifestKey p, time, .json completion⟩

/-- An owner that has written its last status. -/
structure Reported (setup : Setup) (p : PodName) (before : Status) (w : World) : Prop where
  owner : Owner w p
  took : w.took p = some before
  agrees : Agrees setup p before w
  final : w.status.final p = true

/-- An assertion about a live run that the others leave. -/
structure OfReport (setup : Setup) (p : PodName) (A : World → Prop) : Prop where
  aside : ∀ w w', Aside setup p w w' → A w → A w'
  live : ∀ w, A w → w.life p = .live

theorem ofReport_untaken : OfReport setup p (Untaken setup p) :=
  ⟨fun _ _ hs h => ⟨by rw [hs.life]; exact h.live, by rw [hs.took]; exact h.took, hs.absent h.absent⟩,
    fun _ h => h.live⟩

theorem Taken.aside (h : Taken p before w) (hs : Aside setup p w w') : Taken p before w' :=
  ⟨hs.owner h.owner, by rw [hs.took]; exact h.took, by rw [(hs.status h.owner).1]; exact h.record⟩

theorem ofReport_taken : OfReport setup p fun w =>
    Taken p before w ∧ w.bucket.get (setup.manifestKey p) = none :=
  ⟨fun _ _ hs h => ⟨h.1.aside hs, hs.absent h.2⟩, fun _ h => h.1.owner.2⟩

theorem ofReport_absent : OfReport setup p (Absent setup p before) :=
  ⟨fun _ _ hs h => ⟨h.toTaken.aside hs, by rw [(hs.status h.owner).2]; exact h.reporter, hs.absent h.absent⟩,
    fun _ h => h.owner.2⟩

theorem ofReport_present {time : Int} {completion : Completion} :
    OfReport setup p (Present setup p before time completion) where
  aside _ _ hs h := ⟨h.toTaken.aside hs, by rw [(hs.status h.owner).2]; exact h.reporter,
    Int.le_trans h.passed hs.clock, by rw [hs.bucket h.owner]; exact h.there,
    by rw [hs.bucket h.owner]; exact h.only⟩
  live _ h := h.owner.2

theorem Describes.later {o : Stored} (h : Describes setup p o w) (hs : w'.status = w.status)
    (hc : w.clock ≤ w'.clock) : Describes setup p o w' := by
  obtain ⟨hphase, ⟨time, hsuccess, hput, hnow⟩, hkey, hsha⟩ := h
  refine ⟨?_, ⟨time, ?_, hput, Int.le_trans hnow hc⟩, ?_, ?_⟩
  all_goals rw [hs]
  all_goals assumption

theorem Agrees.later (h : Agrees setup p before w) (hb : w'.bucket = w.bucket) (hs : w'.status = w.status)
    (hc : w.clock ≤ w'.clock) : Agrees setup p before w' := by
  refine ⟨fun o ho hk => ?_, fun hn => ?_⟩
  · rw [hb] at ho
    exact (h.published o ho hk).later hs hc
  · rw [hb] at hn
    rw [hs]
    exact h.unpublished hn

theorem ofReport_reported : OfReport setup p (Reported setup p before) where
  aside _ _ hs h := ⟨hs.owner h.owner, by rw [hs.took]; exact h.took,
    h.agrees.later (hs.bucket h.owner) (hs.final h.owner h.final) hs.clock,
    by rw [hs.final h.owner h.final]; exact h.final⟩
  live _ h := h.owner.2

theorem Present.get {time : Int} {completion : Completion} (h : Present setup p before time completion w) :
    w.bucket.get (setup.manifestKey p) = some (.json completion) := by
  obtain ⟨o, ho, hk⟩ := h.there
  cases hf : w.bucket.find? fun o => o.key == setup.manifestKey p with
  | none =>
    have := List.find?_eq_none.mp hf o ho
    simp [hk] at this
  | some o' =>
    have hk' : o'.key = setup.manifestKey p := by simpa using List.find?_some hf
    rw [Bucket.get, hf, h.only o' (List.mem_of_find?_eq_some hf) hk']
    rfl

/-! ## The rules -/

/-- The others leave the report alone, and a run begins with nothing. -/
def reporting (setup : Setup) (p : PodName) : Protocol PodName Call World where
  inv w := w.life p = .unborn → w.took p = none ∧ w.bucket.get (setup.manifestKey p) = none
  guarantee q w w' := q ≠ p → Aside setup p w w'
  pending _ _ _ := True

theorem OfReport.stable {A : World → Prop} (hA : OfReport setup p A) :
    (reporting setup p).Stable machine (granted setup p) p A := by
  rintro w w' ⟨-, -, ⟨q, hq, hg⟩ | ⟨e, he, -⟩⟩ ha
  · exact hA.aside w w' (hg hq) ha
  · exact hA.aside w w' (env_sameReport he).aside ha

theorem reporting_live (h : w.life p = .live) : (reporting setup p).inv w :=
  fun hu => absurd (h.symm.trans hu) nofun

/-- A program of the run, with what it needs of its report and leaves. -/
abbrev Reports (setup : Setup) (p : PodName) (A : Variables → World → Prop) (m : Js α)
    (Q : α → Variables → World → Prop) (E : Stop → Variables → World → Prop) : Prop :=
  Triple (reporting setup p) machine (granted setup p) p A m Q E

/-- What a run throws: exits apart, an owner that has published nothing. -/
def Thrown (setup : Setup) (p : PodName) (e : Stop) (s : Variables) (w : World) : Prop :=
  w.life p = .live ∧ (e ≠ .exit → s.locked = true → ∃ before, Absent setup p before w)

/-- The run's calls that leave the report alone. -/
theorem Reports.quiet {m : Js α} {keep : Bool} {A : Variables → World → Prop} (hm : Makes reportless keep m)
    (hA : ∀ s, OfReport setup p (A s)) (hs : keep = false → ∀ s s' w, A s w → A s' w) :
    Reports setup p A m (fun _ => A) fun _ => A := by
  refine Triple.calls hm (fun s => (hA s).stable) hs fun c s w hc hw ha => ?_
  refine ⟨trivial, fun choice r w' hr _ => ?_⟩
  have ha' := (hA s).aside w w' (perform_sameReport hc hr).aside ha
  exact ⟨reporting_live ((hA s).live w' ha'), fun hp => absurd rfl hp, ha'⟩

/-- A call of the run, which returns or throws. -/
theorem Reports.call {c : Call} {next : c.Ret → Js α} {A : Variables → World → Prop}
    {Q : α → Variables → World → Prop} {E : Stop → Variables → World → Prop} (hA : ∀ s, OfReport setup p (A s))
    (h : ∀ s w choice r w', A s w → settledRun setup p w (.act p c choice) = true →
      perform p c choice w = some (r, w') →
      (∃ a, next r = pure a ∧ Q a s w') ∨ ∃ message, next r = fail message ∧ E (.error message) s w') :
    Reports setup p A (Program.make c >>= next) Q E := by
  refine triple_call (fun s => (hA s).stable) fun s w _ ha => ⟨trivial, fun choice r w' hr hal => ?_⟩
  have hlive : w'.life p = .live := by
    rw [perform_life hr]
    exact (hA s).live w ha
  exact ⟨reporting_live hlive, fun hp => absurd rfl hp,
    h s w choice r w' ha (Protocol.granting_iff.mp hal).1 hr⟩

/-- The clock, within two weeks of the run's own manifest. -/
theorem Reports.now {A : Variables → World → Prop} {E : Stop → Variables → World → Prop}
    (hA : ∀ s, OfReport setup p (A s)) :
    Reports setup p A now (fun t s w => A s w ∧ t = w.clock ∧
      ∀ o ∈ w.bucket, o.key = setup.manifestKey p → t - o.lastModified ≤ 14 * day) E := by
  refine Triple.make (fun s => (hA s).stable) fun s w hw ha => ⟨trivial, fun choice r w' hr hal => ?_⟩
  simp only [machine, perform, Option.some.injEq, Prod.mk.injEq] at hr
  obtain ⟨rfl, rfl⟩ := hr
  refine ⟨hw, fun hp => absurd rfl hp, ha, rfl, fun o ho hk => ?_⟩
  have hal := (Protocol.granting_iff.mp hal).1
  simp only [settledRun, ownRun, bne_self_eq_false, Bool.false_or, Bool.and_eq_true, List.all_eq_true] at hal
  simpa [hk] using hal.1 o ho

/-- A status patch of the run, which succeeds. -/
theorem Reports.patchStatus {A B : Variables → World → Prop} {data : Status}
    {E : Stop → Variables → World → Prop} (hA : ∀ s, OfReport setup p (A s))
    (h : ∀ s w, A s w → B s (w.patchStatus data)) :
    Reports setup p A (patchStatus data) (fun _ => B) E := by
  refine Reports.call hA fun s w choice r w' ha hal hr => .inl ?_
  have he : choice.error = none := by simpa [settledRun, ownRun, settled] using hal
  obtain ⟨rfl, rfl⟩ := Fallible.write_ok he hr
  exact ⟨(), rfl, h s w ha⟩

/-! ## Taking the Lease -/

/-- A run that has taken no Lease, and knows it. -/
structure Waiting (setup : Setup) (p : PodName) (s : Variables) (w : World) : Prop where
  unlocked : s.locked = false
  untaken : Untaken setup p w

theorem ofReport_waiting (s : Variables) : OfReport setup p (Waiting setup p s) :=
  ⟨fun w w' hs h => ⟨h.unlocked, ofReport_untaken.aside w w' hs h.untaken⟩, fun _ h => h.untaken.live⟩

theorem Waiting.thrown {s : Variables} {e : Stop} (h : Waiting setup p s w) : Thrown setup p e s w :=
  ⟨h.untaken.live, fun _ hl => absurd (h.unlocked.symm.trans hl) nofun⟩

theorem waiting_quiet {m : Js α} (hm : Makes reportless true m) :
    Reports setup p (Waiting setup p) m (fun _ => Waiting setup p) (Thrown setup p) :=
  Triple.conseq (Reports.quiet hm ofReport_waiting nofun) (fun _ _ _ h => h) (fun _ _ _ h => h)
    fun _ _ _ h => h.thrown

theorem Untaken.patchLease {patch : LeasePatch} (h : Untaken setup p w)
    (hp : patch.holderIdentity = some p) :
    Taken p w.status (w.patchLease p patch) ∧ (w.patchLease p patch).bucket.get (setup.manifestKey p) = none :=
  ⟨⟨⟨by simp [World.patchLease, Lease.patch, hp], h.live⟩, by simp [World.patchLease, hp], rfl⟩, h.absent⟩

theorem reports_acquire {lease : Lease} :
    Reports setup p (Waiting setup p) (acquire p lease)
      (fun _ _ w => ∃ before, Taken p before w ∧ w.bucket.get (setup.manifestKey p) = none)
      (Thrown setup p) := by
  refine Triple.bind (Q := fun _ => Waiting setup p)
    (Triple.modify fun s w h => ⟨h.unlocked, h.untaken⟩) fun _ => ?_
  refine Triple.bind (Q := fun _ _ w => ∃ before, Taken p before w ∧
    w.bucket.get (setup.manifestKey p) = none) (Reports.call ofReport_waiting ?_) fun _ =>
      Triple.modify fun s w h => h
  intro s w choice r w' h _ hr
  rcases writes_patchLease p choice w r w' hr with ⟨-, -, rfl, hn | ⟨message, hn⟩⟩ | ⟨rfl, message, hn⟩
  · exact .inl ⟨(), hn, w.status, h.untaken.patchLease rfl⟩
  · exact .inr ⟨message, hn, h.untaken.live, fun _ hl => absurd (h.unlocked.symm.trans hl) nofun⟩
  · exact .inr ⟨message, hn, h.thrown⟩

/-! ## Before the publication -/

theorem Taken.patchStatus {data : Status} (h : Taken p before w) (hd : data.record = (none, none, none)) :
    Taken p before (w.patchStatus data) := by
  refine ⟨h.owner, h.took, ?_⟩
  simp only [Status.record, Prod.mk.injEq] at hd
  have hr := h.record
  simpa [Status.record, World.patchStatus, Status.patch, hd.1, hd.2.1, hd.2.2] using hr

/-- The first status of a run. -/
theorem reports_preparing {lastAttempt : Int} :
    Reports setup p (fun _ w => Taken p before w ∧ w.bucket.get (setup.manifestKey p) = none)
      (patchStatus { phase := some (utf16 "preparing"), lastAttempt := some lastAttempt, owner := some p })
      (fun _ _ => Absent setup p before) (Thrown setup p) := by
  refine Reports.patchStatus (B := fun _ => Absent setup p before) (fun _ => ofReport_taken) fun s w h => ?_
  exact ⟨h.1.patchStatus rfl, by simp [World.patchStatus, Status.patch], h.2⟩

theorem Absent.thrown {s : Variables} {e : Stop} (h : Absent setup p before w) : Thrown setup p e s w :=
  ⟨h.owner.2, fun _ _ => ⟨before, h⟩⟩

theorem absent_quiet {m : Js α} (hm : Makes reportless false m) :
    Reports setup p (fun _ => Absent setup p before) m (fun _ _ => Absent setup p before) (Thrown setup p) :=
  Triple.conseq (Reports.quiet hm (fun _ => ofReport_absent) fun _ _ _ _ h => h) (fun _ _ _ h => h)
    (fun _ _ _ h => h) fun _ _ _ h => h.thrown

/-- A status patch that does not tell of a success. -/
theorem Absent.patchStatus {data : Status} (h : Absent setup p before w) (hd : data.Brief) :
    Absent setup p before (w.patchStatus data) :=
  ⟨h.toTaken.patchStatus hd.2, ((hd.patch _).2).trans h.reporter, h.absent⟩

theorem absent_patchStatus {data : Status} (hd : data.Brief) :
    Reports setup p (fun _ => Absent setup p before) (patchStatus data)
      (fun _ _ => Absent setup p before) (Thrown setup p) :=
  Reports.patchStatus (B := fun _ => Absent setup p before) (fun _ => ofReport_absent)
    fun _ _ h => h.patchStatus hd

/-- The archive's put, whatever becomes of it. -/
theorem absent_putArchive {content : Bytes} :
    Reports setup p (fun _ => Absent setup p before) (putObject (setup.Key p) (.bytes content))
      (fun _ _ => Absent setup p before) (Thrown setup p) := by
  refine Reports.call (fun _ => ofReport_absent) fun s w choice r w' ha _ hr => ?_
  have hput : Absent setup p before (effect p (.putObject (setup.Key p) (.bytes content)) choice w) := by
    have hne : setup.manifestKey p ≠ setup.Key p := by
      rw [Setup.manifestKey, Key_json]
      exact (archiveOf_ne _ _).symm
    refine ⟨⟨ha.owner, ha.took, ha.record⟩, ha.reporter, ?_⟩
    simpa [effect, World.putObject, Bucket.get_put, hne] using ha.absent
  rcases writes_putObject p choice w r w' hr with ⟨-, -, rfl, hn | ⟨message, hn⟩⟩ | ⟨rfl, message, hn⟩
  · exact .inl ⟨(), hn, hput⟩
  · exact .inr ⟨message, hn, hput.thrown⟩
  · exact .inr ⟨message, hn, ha.thrown⟩

theorem reports_archive {read : Snapshot} :
    Reports setup p (fun _ => Absent setup p before) (archive setup p read)
      (fun _ _ => Absent setup p before) (Thrown setup p) := by
  refine Triple.bind (absent_patchStatus ⟨rfl, rfl⟩) fun _ => ?_
  refine Triple.bind (absent_quiet (makes_files (by decide))) fun _ => ?_
  refine Triple.bind (absent_quiet (makes_call (c := .getConfig) (by decide) .await)) fun config => ?_
  refine Triple.bind (absent_quiet (makes_manifest (by decide))) fun manifest => ?_
  refine Triple.bind (absent_quiet (makes_files (by decide))) fun _ => ?_
  refine Triple.bind (absent_quiet (makes_startTar (by decide))) fun _ => ?_
  refine Triple.bind (absent_quiet (makes_call (c := .exitTar) (by decide) .await)) fun content => ?_
  exact Triple.bind (absent_quiet (makes_checkpoint (by decide))) fun _ => Triple.pure _ fun _ _ h => h

/-! ## The publication -/

theorem Absent.putManifest {completion : Completion} (h : Absent setup p before w) :
    Present setup p before w.clock completion (w.putObject (setup.manifestKey p) (.json completion)) := by
  refine ⟨⟨h.owner, h.took, h.record⟩, h.reporter, Int.le_refl _,
    ⟨⟨setup.manifestKey p, w.clock, .json completion⟩, ?_, rfl⟩, fun o ho hk => ?_⟩
  · simp [World.putObject, Bucket.put]
  rcases Bucket.mem_put ho with rfl | ho
  · rfl
  · have hnone := List.find?_eq_none.mp (Option.map_eq_none_iff.mp h.absent) o ho
    simp [hk] at hnone

/-- The manifest's put: it returns with the manifest there, or throws without it. -/
theorem reports_putManifest {completion : Completion} :
    Reports setup p (fun _ => Absent setup p before) (putObject (setup.manifestKey p) (.json completion))
      (fun _ _ w => ∃ time, Present setup p before time completion w) (Thrown setup p) := by
  refine Reports.call (fun _ => ofReport_absent) fun s w choice r w' ha hal hr => ?_
  simp only [settledRun, ownRun, settled, if_true, bne_self_eq_false, Bool.false_or, Bool.and_eq_true,
    Bool.or_eq_true, Option.isNone_iff_eq_none, Bool.not_eq_true'] at hal
  obtain ⟨hstored, hsettled⟩ := hal
  cases he : choice.error with
  | none =>
    obtain ⟨rfl, rfl⟩ := Fallible.write_ok he hr
    refine .inl ⟨(), rfl, w.clock, ?_⟩
    simpa [Choice.body, hstored] using ha.putManifest
  | some message =>
    have hl : choice.lands = false := by simpa [Fallible.lands, he] using hsettled
    rcases writes_putObject p choice w r w' hr with ⟨hl', -⟩ | ⟨rfl, message, hn⟩
    · exact absurd hl' (by simp [hl])
    · exact .inr ⟨message, hn, ha.thrown⟩

/-- Publication: the manifest it returns is the one that is there. -/
theorem reports_publish {manifest : Manifest} {content : Bytes} :
    Reports setup p (fun _ => Absent setup p before) (publish setup p manifest content)
      (fun completion _ w => completion.key = setup.Key p ∧ ∃ time, Present setup p before time completion w)
      (Thrown setup p) := by
  refine Triple.bind (absent_quiet (makes_files (by decide))) fun _ => ?_
  refine Triple.bind absent_putArchive fun _ => ?_
  refine Triple.bind (absent_quiet (makes_call (by simp [Call.kind, reportless]) .await)) fun readback => ?_
  cases readback with
  | json => exact Triple.throw _ fun s w h => h.thrown
  | bytes stored =>
    refine Triple.bind (absent_quiet (.throwIf _ _)) fun _ => ?_
    refine Triple.bind (absent_quiet (makes_checkpoint (by decide))) fun _ => ?_
    exact Triple.bind reports_putManifest fun _ => Triple.pure _ fun s w h => ⟨rfl, h⟩

/-! ## The retention after it -/

section

variable {time : Int} {completion : Completion} {E : Stop → Variables → World → Prop}

theorem Present.live (h : Present setup p before time completion w) : w.life p = .live := h.owner.2

/-- What retention has listed of a run: its own manifest with the time it was put at. -/
structure Found (setup : Setup) (p : PodName) (time : Int) (e : Entry) : Prop where
  pre : setup.pre <+: e.key
  own : e.key = setup.manifestKey p → e.lastModified = time

theorem present_listObjects {token : Option JString} :
    Reports setup p (fun _ => Present setup p before time completion) (listObjects setup.pre token)
      (fun page _ w => (∀ e ∈ page.contents, Found setup p time e) ∧ Present setup p before time completion w)
      E := by
  refine Reports.call (fun _ => ofReport_present) fun s w choice r w' ha hal hr => .inl ?_
  have he : choice.error = none := by simpa [settledRun, ownRun, settled] using hal
  simp only [perform] at hr
  split at hr
  · cases hr
  · simp only [Fallible.read, Fallible.reply_ok he, Option.some.injEq, Prod.mk.injEq] at hr
    obtain ⟨rfl, rfl⟩ := hr
    refine ⟨_, rfl, fun e hm => ?_, ha⟩
    obtain ⟨o, ho, hpre, rfl⟩ := Bucket.mem_page hm
    exact ⟨hpre, fun hk => by rw [ha.only o ho hk]⟩

theorem present_listEntries : ∀ (pages : Nat) (token : Option JString) (entries : List Entry),
    (∀ e ∈ entries, Found setup p time e) →
    Reports setup p (fun _ => Present setup p before time completion)
      (listEntries setup.pre pages token entries)
      (fun entries _ w => (∀ e ∈ entries, Found setup p time e) ∧ Present setup p before time completion w)
      (Thrown setup p)
  | 0, _, _, _ => Triple.throw _ fun _ _ h => ⟨h.live, fun hne => absurd rfl hne⟩
  | pages + 1, token, entries, hentries => by
    refine Triple.bind present_listObjects fun page => ?_
    refine Triple.extract (fun s w h => h.1) fun hpage => Triple.pre ?_ fun s w h => h.2
    have hall : ∀ e ∈ entries ++ page.contents, Found setup p time e := by
      intro e he
      rcases List.mem_append.mp he with he | he
      · exact hentries e he
      · exact hpage e he
    split
    · exact Triple.pure _ fun s w h => ⟨hall, h⟩
    · exact present_listEntries pages _ _ hall

/-- The clock during the retention: no two weeks after the publication. -/
theorem present_now :
    Reports setup p (fun _ => Present setup p before time completion) now
      (fun t _ w => t - time ≤ 14 * day ∧ Present setup p before time completion w) E := by
  refine Triple.post (Reports.now fun _ => ofReport_present) fun t s w ⟨h, _, hage⟩ => ⟨?_, h⟩
  obtain ⟨o, ho, hk⟩ := h.there
  have := hage o ho hk
  rwa [h.only o ho hk] at this

/-- A success between the manifest's put and the present. -/
structure Success (setup : Setup) (p : PodName) (before : Status) (time : Int) (completion : Completion)
    (lastSuccess : Int) (w : World) : Prop where
  after : time ≤ lastSuccess
  now : lastSuccess ≤ w.clock
  present : Present setup p before time completion w

theorem ofReport_success {lastSuccess : Int} :
    OfReport setup p (Success setup p before time completion lastSuccess) :=
  ⟨fun w w' hs h => ⟨h.after, Int.le_trans h.now hs.clock, ofReport_present.aside w w' hs h.present⟩,
    fun _ h => h.present.owner.2⟩

theorem present_lastSuccess :
    Reports setup p (fun _ => Present setup p before time completion) now
      (fun t _ => Success setup p before time completion t) E := by
  refine Triple.post (Reports.now fun _ => ofReport_present) fun t s w ⟨h, ht, _⟩ => ?_
  exact ⟨ht ▸ h.passed, Int.le_of_eq ht, h⟩

theorem present_deleteObject {key : JString} (hk : key ≠ setup.manifestKey p) :
    Reports setup p (fun _ => Present setup p before time completion) (deleteObject key)
      (fun _ _ => Present setup p before time completion) E := by
  refine Reports.call (fun _ => ofReport_present) fun s w choice r w' ha hal hr => .inl ?_
  have he : choice.error = none := by simpa [settledRun, ownRun, settled] using hal
  obtain ⟨rfl, rfl⟩ := Fallible.write_ok he hr
  obtain ⟨o, ho, hok⟩ := ha.there
  refine ⟨(), rfl, ⟨ha.owner, ha.took, ha.record⟩, ha.reporter, ha.passed, ⟨o, ?_, hok⟩,
    fun o' ho' => ha.only o' (Bucket.mem_delete ho')⟩
  simp only [World.deleteObject, Bucket.delete, List.mem_filter, bne_iff_ne, ho, true_and, hok]
  exact hk.symm

theorem present_expire {entry : Entry} (hr : Retirable setup.pre entry) (hk : entry.key ≠ setup.manifestKey p)
    (hs : endsWith entry.key (utf16 ".tar.gz.json") = true) :
    Reports setup p (fun _ => Present setup p before time completion) (expire setup.pre entry)
      (fun _ _ => Present setup p before time completion) E := by
  have hcheck : (!setup.pre.isPrefixOf (archiveKey entry.key) ||
      !endsWith (archiveKey entry.key) (utf16 ".tar.gz")) = false := by
    simp [hr.under, hr.archive]
  have harchive : archiveKey entry.key ≠ setup.manifestKey p := by
    obtain ⟨name, hname⟩ := completionOf_of_endsWith hs
    rw [hname, archiveKey_completionOf, Setup.manifestKey, Key_json]
    exact archiveOf_ne _ _
  simp only [expire, throwIf_false hcheck]
  exact Triple.bind (Triple.pure () fun s w h => h) fun _ =>
    Triple.bind (present_deleteObject hk) fun _ => present_deleteObject harchive

/-- The retention keeps the run's own manifest, which is new. -/
theorem present_retire (entries : List Entry) (weeks : List Int)
    (hentries : ∀ e ∈ entries, Found setup p time e ∧ endsWith e.key (utf16 ".tar.gz.json") = true) :
    Reports setup p (fun _ => Present setup p before time completion) (retire setup.pre entries weeks)
      (fun _ _ => Present setup p before time completion) E := by
  induction entries generalizing weeks with
  | nil => exact Triple.pure _ fun _ _ h => h
  | cons entry rest ih =>
    obtain ⟨⟨hfound, hs⟩, hrest⟩ := List.forall_mem_cons.mp hentries
    refine Triple.bind present_now fun t => ?_
    refine Triple.extract (fun s w h => h.1) fun hage => Triple.pre ?_ fun s w h => h.2
    refine Triple.bind ?_ fun _ => ih _ hrest
    unfold expireUnless
    split
    · exact Triple.pure _ fun _ _ h => h
    · next hkeep =>
      refine present_expire (retirable_of_endsWith hfound.pre hs) (fun hk => hkeep ?_) hs
      have hyoung : age t entry.lastModified ≤ 14 := age_le.mpr (by rw [hfound.own hk]; exact hage)
      simp [keep, hyoung]

theorem present_retireOldBackups :
    Reports setup p (fun _ => Present setup p before time completion) (retireOldBackups setup)
      (fun _ _ => Present setup p before time completion) (Thrown setup p) := by
  refine Triple.bind (present_listEntries _ _ _ nofun) fun entries => ?_
  refine Triple.extract (fun s w h => h.1) fun hentries => Triple.pre ?_ fun s w h => h.2
  refine present_retire _ _ fun e he => ?_
  exact ⟨hentries e (mem_manifests.mp he).1, (mem_manifests.mp he).2⟩

/-! ## The last status -/

theorem Present.completed {lastSuccess : Int} {data : Status} (h : Present setup p before time completion w)
    (hput : time ≤ lastSuccess) (hnow : lastSuccess ≤ w.clock)
    (hphase : data.phase = some (utf16 "completed")) (howner : data.owner = none)
    (hsuccess : data.record = (some lastSuccess, some (setup.manifestKey p), some completion.sha256)) :
    Reported setup p before (w.patchStatus data) := by
  simp only [Status.record, Prod.mk.injEq] at hsuccess
  obtain ⟨hs, hk, hsha⟩ := hsuccess
  refine ⟨h.owner, h.took, ⟨fun o ho hok => ?_, fun hn => ?_⟩, ?_⟩
  · obtain rfl := h.only o ho hok
    refine ⟨?_, ⟨lastSuccess, ?_, hput, hnow⟩, ?_, completion, rfl, ?_⟩
    all_goals simp [World.patchStatus, Status.patch, *]
  · cases hn.symm.trans h.get
  · simp [Status.final, World.patchStatus, Status.patch, hphase, howner, h.reporter]

end

theorem Absent.failed {data : Status} (h : Absent setup p before w) (hd : data.Brief)
    (hphase : data.phase = some (utf16 "failed")) : Reported setup p before (w.patchStatus data) := by
  have habsent := h.patchStatus hd
  have hp : (w.patchStatus data).status.phase = some (utf16 "failed") := by
    simp [World.patchStatus, Status.patch, hphase]
  refine ⟨habsent.owner, habsent.took, ⟨fun o ho hk => ?_, fun _ => ⟨hp, habsent.record⟩⟩, ?_⟩
  · have hnone := List.find?_eq_none.mp (Option.map_eq_none_iff.mp habsent.absent) o ho
    simp [hk] at hnone
  · simp [Status.final, hp, habsent.reporter]

/-- A run that has taken the Lease has written its last status. -/
def Accounted (setup : Setup) (p : PodName) (s : Variables) (w : World) : Prop :=
  w.life p = .live ∧ (s.locked = true → ∃ before, Reported setup p before w)

theorem ofReport_accounted (s : Variables) : OfReport setup p (Accounted setup p s) where
  aside w w' hs h := ⟨by rw [hs.life]; exact h.1, fun hl =>
    have ⟨before, hr⟩ := h.2 hl
    ⟨before, ofReport_reported.aside w w' hs hr⟩⟩
  live _ h := h.1

theorem Reported.accounted {s : Variables} (h : Reported setup p before w) : Accounted setup p s w :=
  ⟨h.owner.2, fun _ => ⟨before, h⟩⟩

theorem Waiting.accounted {s : Variables} (h : Waiting setup p s w) : Accounted setup p s w :=
  ⟨h.untaken.live, fun hl => absurd (h.unlocked.symm.trans hl) nofun⟩

/-! ## Runs -/

theorem reports_backup {lease : Lease} :
    Reports setup p (Waiting setup p) (backup setup p lease) (fun _ => Accounted setup p)
      (Thrown setup p) := by
  refine Triple.bind (waiting_quiet (.throwIf _ _)) fun _ => ?_
  refine Triple.bind (waiting_quiet (makes_preflight (by decide) (by decide))) fun _ => ?_
  refine Triple.bind reports_acquire fun _ => Triple.exists_pre fun before => ?_
  refine Triple.bind (Triple.post (Reports.now fun _ => ofReport_taken) fun _ _ _ h => h.1) fun lastAttempt => ?_
  refine Triple.bind reports_preparing fun _ => ?_
  refine Triple.bind (absent_quiet makes_needsRecovery) fun _ => ?_
  refine Triple.bind (absent_quiet (makes_suspend (by decide) (by decide) (by decide))) fun read => ?_
  refine Triple.bind (absent_quiet (makes_scaleDown (by decide) (by decide))) fun _ => ?_
  refine Triple.bind (absent_quiet (makes_scaleDown (by decide) (by decide))) fun _ => ?_
  refine Triple.bind reports_archive fun out => ?_
  refine Triple.bind (absent_quiet (makes_resumeOriginal (by decide) (by decide) (by decide) (by decide)))
    fun _ => ?_
  refine Triple.bind (absent_quiet makes_needsRecovery) fun _ => ?_
  refine Triple.bind (absent_patchStatus ⟨rfl, rfl⟩) fun _ => ?_
  refine Triple.bind reports_publish fun completion => ?_
  refine Triple.extract (fun s w h => h.1) fun hk => ?_
  refine Triple.pre (Triple.exists_pre fun time => ?_) fun s w h => h.2
  refine Triple.bind present_retireOldBackups fun _ => Triple.bind present_lastSuccess fun lastSuccess => ?_
  have hkey : completion.key ++ utf16 ".json" = setup.manifestKey p := by rw [hk, Setup.manifestKey]
  refine Triple.post (Reports.patchStatus (B := fun _ => Reported setup p before)
    (fun _ => ofReport_success) fun s w h => ?_) fun _ _ _ h => h.accounted
  refine h.present.completed h.after h.now rfl rfl ?_
  rw [hkey]
  rfl

/-- A `recover` run never has the Lease. -/
theorem reports_recover {lease : Lease} :
    Reports setup p (Waiting setup p) (recover lease) (fun _ => Accounted setup p) (Thrown setup p) := by
  have hcalls : Makes [.read, .observe, .scale, .suspend, .lease, .status] true (recover lease) := by
    refine makes_recover ?_ ?_ ?_ ?_ ?_ ?_
    all_goals decide
  have hlive : ∀ s : Variables, OfReport setup p fun w => s.locked = false ∧ w.life p = .live := fun s =>
    ⟨fun _ _ hs h => ⟨h.1, by rw [hs.life]; exact h.2⟩, fun _ h => h.2⟩
  refine Triple.conseq (Triple.calls hcalls (fun s => (hlive s).stable) nofun fun c s w hc hw ha =>
    ⟨trivial, fun choice r w' hr _ => ?_⟩) (fun s w _ h => ⟨h.unlocked, h.untaken.live⟩) ?_ ?_
  · have hl : w'.life p = .live := by
      rw [perform_life hr]
      exact ha.2
    exact ⟨reporting_live hl, fun hp => absurd rfl hp, ha.1, hl⟩
  · exact fun _ s w h => ⟨h.2, fun hl => absurd (h.1.symm.trans hl) nofun⟩
  · exact fun _ s w h => ⟨h.2, fun _ hl => absurd (h.1.symm.trans hl) nofun⟩

theorem reports_body {mode : Mode} :
    Reports setup p (Waiting setup p) (body setup p mode) (fun _ => Accounted setup p) (Thrown setup p) := by
  refine Triple.bind (waiting_quiet (makes_call (c := .getLease) (by decide) .await)) fun lease => ?_
  cases mode with
  | backup => exact reports_backup
  | recover => exact reports_recover

/-- The `catch` clause, before the publication. -/
theorem reports_failed {message : JString} {E : Stop → Variables → World → Prop} :
    Reports setup p (Thrown setup p (.error message)) (failed message) (fun _ => Accounted setup p) E := by
  refine Triple.read fun vars => ?_
  split
  · next hl =>
    refine Triple.tryCatch (F := fun _ _ _ => False) ?_ fun e s w _ h => absurd h not_false
    refine Triple.pre (Triple.exists_pre fun before => ?_) fun s w ⟨hv, h⟩ => h.2 nofun (hv ▸ hl)
    exact Triple.post (Reports.patchStatus (B := fun _ => Reported setup p before) (fun _ => ofReport_absent)
      fun _ w h => h.failed ⟨rfl, rfl⟩ rfl) fun _ _ _ h => h.accounted
  · next hl => exact Triple.pure _ fun s w ⟨hv, h⟩ => ⟨h.1, fun hl' => absurd (hv ▸ hl') hl⟩

/-- What a run has told by its end. -/
def Truthful (setup : Setup) (p : PodName) (s : Variables) (w : World) : Prop :=
  s.locked = true → ∃ before, w.took p = some before ∧ Agrees setup p before w

theorem Accounted.truthful {s : Variables} (h : Accounted setup p s w) : Truthful setup p s w := fun hl =>
  have ⟨before, hr⟩ := h.2 hl
  ⟨before, hr.took, hr.agrees⟩

/-- The `finally` clause, whose last call gives the Lease back. -/
theorem reports_release :
    Reports setup p (Accounted setup p) release (fun _ => Truthful setup p) fun _ => Truthful setup p := by
  refine Triple.read fun vars => ?_
  split
  · refine Triple.pre ?_ fun s w h => h.2
    have hback : Makes reportless true recoverServices := by
      refine makes_recoverServices ?_ ?_ ?_ ?_
      all_goals decide
    refine Triple.bind (Triple.conseq (Reports.quiet hback ofReport_accounted nofun) (fun _ _ _ h => h)
      (fun _ _ _ h => h) fun _ _ _ h => h.truthful) fun recovered => ?_
    split
    · refine Reports.call ofReport_accounted fun s w choice r w' h _ hr => ?_
      have htruthful : Truthful setup p s (effect p (.patchLease { holderIdentity := none }) choice w) :=
        fun hl =>
        have ⟨before, ht, ha⟩ := h.truthful hl
        ⟨before, by simpa [effect, World.patchLease] using ht, ha.later rfl rfl (Int.le_refl _)⟩
      rcases writes_patchLease p choice w r w' hr with ⟨-, -, rfl, hn | ⟨message, hn⟩⟩ | ⟨rfl, message, hn⟩
      · exact .inl ⟨(), hn, htruthful⟩
      · exact .inr ⟨message, hn, htruthful⟩
      · exact .inr ⟨message, hn, h.truthful⟩
    · exact Triple.pure _ fun _ _ h => h.truthful
  · exact Triple.pure _ fun _ _ h => h.2.truthful

theorem reports_main {mode : Mode} :
    Reports setup p (Waiting setup p) (main setup p mode) (fun _ => Truthful setup p)
      fun e s w => e ≠ .exit → Truthful setup p s w := by
  refine Triple.bind (Q := fun _ => Accounted setup p) (Triple.tryCatch reports_body fun e => ?_) fun _ => ?_
  · cases e with
    | error => exact reports_failed
    | exit => exact Triple.throw _ fun _ _ _ h => absurd rfl h
  · exact Triple.conseq reports_release (fun _ _ _ h => h) (fun _ _ _ h => h) fun _ _ _ h _ => h

/-! ## Pools -/

/-- How a run has ended: by itself, with what it has told. -/
def ReportEnd (setup : Setup) (p q : PodName) (out : Except Stop Unit × Variables) (w : World) : Prop :=
  q = p → out.1 ≠ .error .exit → Truthful setup p out.2 w

theorem reporting_inv (hw : (reporting setup p).inv w) (hs : Aside setup p w w') :
    (reporting setup p).inv w' := by
  intro hu
  rw [hs.life] at hu
  obtain ⟨htook, habsent⟩ := hw hu
  exact ⟨by rw [hs.took]; exact htook, hs.absent habsent⟩

/-- Another run, whatever it is, leaves the report alone. -/
theorem reporting_other {mode : Mode} (hid : Function.Injective setup.id) (hq : q ≠ p)
    (hw : (reporting setup p).inv w) :
    (reporting setup p).wp machine (granted setup p) q (program setup q mode) (ReportEnd setup p q) w := by
  refine Protocol.wp_mono (fun _ _ _ he => absurd he hq) (Protocol.wp_calls (A := fun _ => True) .const
    (fun c w hputs hw _ => ⟨trivial, fun choice r w' hr hal => ?_⟩) (putsOwn_main _) hw trivial)
  have hs := other_aside hid hq hputs hal hr
  exact ⟨reporting_inv hw hs, fun _ => hs, trivial⟩

theorem reporting_surroundings (hid : Function.Injective setup.id) :
    (reporting setup p).Surroundings machine (granted setup p) (program setup) (ReportEnd setup p) where
  start q mode w w' hw h := by
    obtain ⟨hl, rfl⟩ := start_eq h
    by_cases hq : q = p
    · subst hq
      have hlive : Function.update w.life q .live q = .live := Function.update_self ..
      obtain ⟨htook, habsent⟩ := hw hl
      refine ⟨reporting_live hlive, fun hn => absurd rfl hn, ?_⟩
      refine reports_main.script (reporting_live hlive) ⟨rfl, hlive, htook, habsent⟩ fun out w' hout _ hne => ?_
      obtain ⟨result, s⟩ := out
      cases result with
      | ok => exact hout
      | error e => exact hout fun he => hne (congrArg _ he)
    · have hs : Aside setup p w { w with life := Function.update w.life q .live } :=
        (sameReport_life hq).aside
      exact ⟨reporting_inv hw hs, fun _ => hs, reporting_other hid hq (reporting_inv hw hs)⟩
  stop q w hw := by
    refine ⟨?_, fun hq => (sameReport_life hq).aside⟩
    by_cases hq : q = p
    · subst hq
      intro hu
      simp [machine, stop] at hu
    · exact reporting_inv hw (sameReport_life hq).aside
  env _ _ _ hw h _ := reporting_inv hw (env_sameReport h).aside

/-- **The reported outcome.** A run that has taken the Lease and is not killed
ends with a status that agrees with the bucket, whatever else fails and
whatever the other runs do, if its manifest's put does not throw after storing
it, no call of the retention fails, and no late `recover` run's status lands
before the Lease is given back. -/
theorem outcome_reported {s s' : Runs} {c : Call}
    {next : c.Ret → Script Call Call.Ret (Except Stop Unit × Variables)}
    {out : Except Stop Unit × Variables} (hid : Function.Injective setup.id) (h₀ : Initial w)
    (hfresh : w.bucket.get (setup.manifestKey p) = none)
    (h : Reachable machine (program setup) (settledRun setup p) w s)
    (hstep : Step machine (program setup) (settledRun setup p) s s') (hcall : s.procs p = some (.call c next))
    (hend : s'.procs p = some (.pure out)) (hexit : out.1 ≠ .error .exit) (hlocked : out.2.locked = true) :
    ∃ before, s'.world.took p = some before ∧ Agrees setup p before s'.world := by
  have henv : (protocol false).Surroundings machine always (program setup) fun _ _ _ => True :=
    (allowed_false ▸ environment false setup).toSurroundings
  have hlease : (protocol false).Running machine always (fun _ _ _ => True) s :=
    Protocol.running henv h₀.leaseInv (h.lift id fun _ _ hs => hs.mono fun _ => rfl)
  have hrunning : (reporting setup p).Running machine (granted setup p) (ReportEnd setup p) s :=
    Protocol.running (reporting_surroundings hid) (fun _ => ⟨h₀.untaken p, hfresh⟩)
      (Protocol.granted henv (fun _ => rfl) h₀.leaseInv h)
  exact hrunning.ends (reporting_surroundings hid) (hlease.granted (fun _ => rfl) hstep) hcall hend rfl hexit
    hlocked

/-! ## A run to its end -/

/-- A backup from its last put on, the answer to its listing given. -/
def toEnd (p : PodName) (choice : Choice) (rest : Nat) : List (Event PodName Mode Choice Env) :=
  toCompletion p {} ++ acts p (choice :: fine rest)

/-- A run that has come to its end, with the Lease taken. -/
def returned (s : Runs) (p : PodName) : Bool :=
  match s.procs p with
  | some (.pure (.ok _, vars)) => vars.locked
  | _ => false

theorem returned_iff {s : Runs} :
    returned s p = true ↔ ∃ vars, s.procs p = some (.pure (.ok (), vars)) ∧ vars.locked = true := by
  unfold returned
  split
  · next vars hp => simp [hp]
  · next h => simpa using fun vars hp => absurd hp (h () vars)

/-- The pools before and after a run's last call. -/
def ending (allowed : World → Move PodName Call Choice Env → Bool) (p : PodName)
    (events : List (Event PodName Mode Choice Env)) : Option (Runs × Runs) :=
  (Pool.run machine (program sampleSetup) allowed ⟨atRest, fun _ => none⟩ events).bind fun s =>
    (s.step machine (program sampleSetup) allowed (.act p {})).map fun s' => (s, s')

/-- Such an ending, as it is decided. -/
theorem ending_eq {β : Type} {allowed : World → Move PodName Call Choice Env → Bool}
    {events : List (Event PodName Mode Choice Env)} (f : World → β) {x : β}
    (h : ((ending allowed p events).map fun t =>
      (waitsFor (fun _ => true) (t.1.procs p), returned t.2 p, f t.2.world)) = some (true, true, x)) :
    ∃ s s' c next vars, ending allowed p events = some (s, s') ∧
      Reachable machine (program sampleSetup) allowed atRest s ∧
      Step machine (program sampleSetup) allowed s s' ∧ s.procs p = some (.call c next) ∧
      s'.procs p = some (.pure (.ok (), vars)) ∧ vars.locked = true ∧ f s'.world = x := by
  obtain ⟨⟨s, s'⟩, hending, hx⟩ := Option.map_eq_some_iff.mp h
  simp only [Prod.mk.injEq] at hx
  obtain ⟨hwaits, hreturned, hf⟩ := hx
  obtain ⟨c, next, hcall, -⟩ := waitsFor_iff.mp hwaits
  obtain ⟨vars, hend, hlocked⟩ := returned_iff.mp hreturned
  have hends := hending
  obtain ⟨_, hrun, hlast⟩ := Option.bind_eq_some_iff.mp hends
  obtain ⟨_, hstep, hpair⟩ := Option.map_eq_some_iff.mp hlast
  cases hpair
  exact ⟨s, s', c, next, vars, hending, Pool.run_sound hrun, Pool.step_sound hstep, hcall, hend, hlocked, hf⟩

theorem outcome_reported_sample : ∃ s s' : Runs,
    ending (settledRun sampleSetup second) second (toEnd second {} 3) = some (s, s') ∧
    s'.world.status.phase = some (utf16 "completed") ∧
    ∃ before, s'.world.took second = some before ∧ Agrees sampleSetup second before s'.world := by
  have hrun : ((ending (settledRun sampleSetup second) second (toEnd second {} 3)).map fun t =>
      (waitsFor (fun _ => true) (t.1.procs second), returned t.2 second, t.2.world.status.phase)) =
      some (true, true, some (utf16 "completed")) := by decide +kernel
  obtain ⟨s, s', c, next, vars, hending, hs, hstep, hcall, hend, hlocked, hphase⟩ :=
    ending_eq (fun w => w.status.phase) hrun
  exact ⟨s, s', hending, hphase, outcome_reported sampleSetup_id atRest_initial rfl hs hstep hcall hend nofun
    hlocked⟩

/-- A listing that fails once the manifest is put: the run has published and reports a failure. -/
theorem outcome_misreported : ¬ ∀ (setup : Setup) (p : PodName) (w : World) (s s' : Runs) (c : Call)
    (next : c.Ret → Script Call Call.Ret (Except Stop Unit × Variables)) (out : Except Stop Unit × Variables),
    Function.Injective setup.id → Initial w → w.bucket.get (setup.manifestKey p) = none →
    Reachable machine (program setup) (ownRun setup p) w s →
    Step machine (program setup) (ownRun setup p) s s' → s.procs p = some (.call c next) →
    s'.procs p = some (.pure out) → out.1 ≠ .error .exit → out.2.locked = true →
    ∃ before, s'.world.took p = some before ∧ Agrees setup p before s'.world := by
  intro h
  have hrun : ((ending (ownRun sampleSetup second) second
      (toEnd second { error := some (utf16 "HTTP 503") } 1)).map fun t =>
        (waitsFor (fun _ => true) (t.1.procs second), returned t.2 second, t.2.world.status.phase,
          t.2.world.bucket.any fun o => o.key == sampleSetup.manifestKey second)) =
      some (true, true, some (utf16 "failed"), true) := by decide +kernel
  obtain ⟨s, s', c, next, vars, -, hs, hstep, hcall, hend, hlocked, hw⟩ := ending_eq
    (fun w => (w.status.phase, w.bucket.any fun o => o.key == sampleSetup.manifestKey second)) hrun
  simp only [Prod.mk.injEq, List.any_eq_true, beq_iff_eq] at hw
  obtain ⟨hphase, o, ho, hk⟩ := hw
  obtain ⟨before, -, hagrees⟩ := h sampleSetup second atRest s s' c next _ sampleSetup_id atRest_initial rfl
    hs hstep hcall hend (by simp) hlocked
  exact absurd ((hagrees.published o ho hk).phase.symm.trans hphase) (by decide)

/-- A backup is killed with the Lease, and a `recover` run comes as far as its status patch. -/
def lateRecovery : List (Event PodName Mode Choice Env) :=
  [.start first .backup] ++ acts first (preflightAnswers ++ fine 1) ++ [.stop first] ++
  [.start early .recover] ++ acts early (fine 10)

/-- That patch lands when the next backup has told of its success. -/
example : ((ending (ownRun sampleSetup second) second
    (lateRecovery ++ toEnd second {} 3 ++ acts early (fine 1))).map fun t => t.2.world.status.phase) =
    some (some (utf16 "recovered")) := by decide +kernel

end CartyxInfra.Backup
