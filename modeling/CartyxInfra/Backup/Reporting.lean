/-
What a backup run reports of itself, against what it leaves in the bucket, and
what the other runs leave of both.

While a run holds the Lease nothing else writes to the bucket, and of the
status the other runs write the phase and the error only: a backup writes as
the Lease's owner, and a `recover` run's patch is brief. A late `recover` run
can still overwrite the phase a run ends with.
-/
import CartyxInfra.Backup.Lease
import CartyxInfra.Backup.Publication
import CartyxInfra.Backup.RetentionPolicy

namespace CartyxInfra.Backup

open JString

variable {setup : Setup} {p q : PodName} {before : Status} {w w' : World} {α : Type}

/-! ## The report -/

/-- The key of a run's completion manifest. -/
def Setup.manifestKey (setup : Setup) (p : PodName) : JString := setup.Key p ++ utf16 ".json"

/-- The status tells of the run's success with this manifest: a success between
the manifest's put and the present. -/
structure Describes (setup : Setup) (p : PodName) (o : Stored) (w : World) : Prop where
  phase : w.status.phase = some (utf16 "completed")
  lastSuccess : ∃ time, w.status.lastSuccess = some time ∧ o.lastModified ≤ time ∧ time ≤ w.clock
  key : w.status.key = some (setup.manifestKey p)
  sha256 : ∃ completion, o.body = .json completion ∧ w.status.sha256 = some completion.sha256

/-- The status agrees with the bucket: it tells of the run's manifest that is
there, or of a failure and the success before. -/
structure Agrees (setup : Setup) (p : PodName) (before : Status) (w : World) : Prop where
  published : ∀ o ∈ w.bucket, o.key = setup.manifestKey p → Describes setup p o w
  unpublished : w.bucket.get (setup.manifestKey p) = none →
    w.status.phase = some (utf16 "failed") ∧ w.status.record = before.record

/-- The status is the last one a run writes. -/
def Status.final (status : Status) (p : PodName) : Bool :=
  status.owner == some p &&
    (status.phase == some (utf16 "completed") || status.phase == some (utf16 "failed"))

/-- The runs looked at: the run's own status patches succeed, its manifest is
stored as sent, and it ends within two weeks of that. -/
def ownRun (setup : Setup) (p : PodName) (w : World) : Move PodName Call Choice Env → Bool
  | .act q c choice =>
    q != p ||
      match c with
      | .patchStatus _ => choice.error.isNone
      | .putObject _ (.json _) => choice.stored.isNone
      | .now => w.bucket.all fun o => o.key != setup.manifestKey p || w.clock - o.lastModified ≤ 14 * day
      | _ => true
  | .env _ => true

/-- The manifest's put does not throw once it is stored, and no call of the
retention fails. -/
def settled : Call → Choice → Bool
  | .putObject _ (.json _), choice => choice.error.isNone || !choice.applied
  | .listObjects .., choice | .deleteObject _, choice => choice.error.isNone
  | _, _ => true

/-- A `recover` run's status patch that lands between a run's last status patch
and its release of the Lease. -/
def overwrites (p q : PodName) (w : World) : Call → Choice → Bool
  | .patchStatus _, choice =>
    choice.lands && (w.took q).isNone && w.lease.holderIdentity == some p && w.status.final p
  | _, _ => false

/-- Such runs whose calls around the publication are settled, and whose last
status no `recover` run overwrites. -/
def settledRun (setup : Setup) (p : PodName) (w : World) (move : Move PodName Call Choice Env) : Bool :=
  ownRun setup p w move &&
    match move with
    | .act q c choice => if q = p then settled c choice else !overwrites p q w c choice
    | .env _ => true

/-! ## What the others leave -/

/-- What a step of the others leaves of a run and its report. -/
structure Aside (setup : Setup) (p : PodName) (w w' : World) : Prop where
  life : w'.life p = w.life p
  took : w'.took p = w.took p
  clock : w.clock ≤ w'.clock
  absent : w.bucket.get (setup.manifestKey p) = none → w'.bucket.get (setup.manifestKey p) = none
  lease : Owner w p → w'.lease = w.lease
  bucket : Owner w p → w'.bucket = w.bucket
  status : Owner w p → w'.status.record = w.status.record ∧ w'.status.owner = w.status.owner
  final : Owner w p → w.status.final p = true → w'.status = w.status

theorem Aside.owner (h : Aside setup p w w') (ho : Owner w p) : Owner w' p := by
  refine ⟨?_, ?_⟩
  · rw [h.lease ho]
    exact ho.1
  · rw [h.life]
    exact ho.2

/-- The Lease, the report and what is known of the run are the same. -/
structure SameReport (p : PodName) (w w' : World) : Prop where
  lease : w'.lease = w.lease
  life : w'.life p = w.life p
  took : w'.took p = w.took p
  clock : w.clock ≤ w'.clock
  bucket : w'.bucket = w.bucket
  status : w'.status = w.status

theorem SameReport.refl (w : World) : SameReport p w w := ⟨rfl, rfl, rfl, Int.le_refl _, rfl, rfl⟩

theorem SameReport.aside (h : SameReport p w w') : Aside setup p w w' where
  life := h.life
  took := h.took
  clock := h.clock
  absent hn := by rwa [h.bucket]
  lease _ := h.lease
  bucket _ := h.bucket
  status _ := by rw [h.status]; exact ⟨rfl, rfl⟩
  final _ _ := h.status

theorem env_sameReport {e : Env} (h : env e w = some w') : SameReport p w w' := by
  cases e with
  | tick ms =>
    cases h
    exact ⟨rfl, rfl, rfl, by simp, rfl, rfl⟩
  | cancel | podCount | report =>
    cases h
    exact ⟨rfl, rfl, rfl, Int.le_refl _, rfl, rfl⟩
  | begin | finish | upgrade =>
    simp only [env] at h
    split at h
    · cases h
      exact ⟨rfl, rfl, rfl, Int.le_refl _, rfl, rfl⟩
    · cases h

/-- Another run begins or ends. -/
theorem sameReport_life {life : Life} (hq : q ≠ p) :
    SameReport p w { w with life := Function.update w.life q life } :=
  ⟨rfl, Function.update_of_ne (Ne.symm hq) .., rfl, Int.le_refl _, rfl, rfl⟩

/-- The kinds of calls that leave the Lease and the report alone. -/
def reportless : List Kind := [.read, .observe, .scale, .suspend, .startTar, .exitTar]

theorem perform_sameReport {c : Call} {choice : Choice} {r : c.Ret} (hc : c.kind ∈ reportless)
    (h : perform q c choice w = some (r, w')) : SameReport p w w' := by
  rcases perform_cases h with rfl | rfl
  · exact .refl w'
  · cases c with
    | patchLease | patchStatus | putObject | deleteObject => simp [Call.kind, reportless] at hc
    | _ => exact ⟨rfl, rfl, rfl, Int.le_refl _, rfl, rfl⟩

/-! ### The keys a run puts objects under -/

/-- A call that puts an object under a key of the run's own only. -/
def PutsOwn (setup : Setup) (p : PodName) : Call → Prop
  | .putObject key _ => Own setup p key
  | _ => True

/-- The kinds of calls that put nothing. -/
def putless : List Kind :=
  [.read, .observe, .lease, .scale, .suspend, .status, .startTar, .exitTar, .delete]

theorem putsOwn_of_makes {m : Js α} (hm : Makes putless false m) : Program.Calls (PutsOwn setup p) false m := by
  refine hm.mono (fun c hc => ?_) id
  cases c with
  | putObject => simp [Call.kind, putless] at hc
  | _ => exact True.intro

theorem putsOwn_putObject {key : JString} {body : Body} (h : Own setup p key) :
    Program.Calls (PutsOwn setup p) false (putObject key body) := by
  have hc : PutsOwn setup p (.putObject key body) := h
  exact (Program.Calls.make hc).bind .await

theorem putsOwn_publish {manifest : Manifest} {content : Bytes} :
    Program.Calls (PutsOwn setup p) false (publish setup p manifest content) := by
  refine (putsOwn_of_makes (makes_files (by decide))).bind fun _ => ?_
  refine (putsOwn_putObject (.inl Key_eq)).bind fun _ => ?_
  refine (putsOwn_of_makes (makes_call (by simp [Call.kind, putless]) .await)).bind fun readback => ?_
  cases readback with
  | json => exact .throw _
  | bytes stored =>
    refine (Program.Calls.throwIf _ _).bind fun _ => ?_
    refine (putsOwn_of_makes (makes_checkpoint (by decide))).bind fun _ => ?_
    exact (putsOwn_putObject (.inr Key_json)).bind fun _ => .pure _

theorem putsOwn_backup {lease : Lease} : Program.Calls (PutsOwn setup p) false (backup setup p lease) := by
  refine (Program.Calls.throwIf _ _).bind fun _ => ?_
  refine (putsOwn_of_makes (makes_preflight (by decide) (by decide))).bind fun _ => ?_
  refine (putsOwn_of_makes (makes_acquire (by decide))).bind fun _ => ?_
  refine (putsOwn_of_makes (makes_now (by decide))).bind fun _ => ?_
  refine (putsOwn_of_makes (makes_patchStatus (by decide))).bind fun _ => ?_
  refine (putsOwn_of_makes makes_needsRecovery).bind fun _ => ?_
  refine (putsOwn_of_makes (makes_suspend (by decide) (by decide) (by decide))).bind fun _ => ?_
  refine (putsOwn_of_makes (makes_scaleDown (by decide) (by decide))).bind fun _ => ?_
  refine (putsOwn_of_makes (makes_scaleDown (by decide) (by decide))).bind fun _ => ?_
  refine (putsOwn_of_makes (makes_archive (by decide) (by decide) (by decide) (by decide))).bind fun _ => ?_
  refine (putsOwn_of_makes (makes_resumeOriginal (by decide) (by decide) (by decide) (by decide))).bind
    fun _ => ?_
  refine (putsOwn_of_makes makes_needsRecovery).bind fun _ => ?_
  refine (putsOwn_of_makes (makes_patchStatus (by decide))).bind fun _ => ?_
  refine putsOwn_publish.bind fun _ => ?_
  refine (putsOwn_of_makes (makes_retireOldBackups (by decide) (by decide))).bind fun _ => ?_
  exact (putsOwn_of_makes (makes_now (by decide))).bind fun _ => putsOwn_of_makes (makes_patchStatus (by decide))

/-- Every object a run puts is named after it. -/
theorem putsOwn_main {mode : Mode} : Program.Calls (PutsOwn setup p) false (main setup p mode) := by
  have hbody : Program.Calls (PutsOwn setup p) false (body setup p mode) := by
    refine (putsOwn_of_makes (makes_call (c := .getLease) (by decide) .await)).bind fun lease => ?_
    cases mode with
    | backup => exact putsOwn_backup
    | recover =>
      refine putsOwn_of_makes (makes_recover ?_ ?_ ?_ ?_ ?_ ?_)
      all_goals decide
  refine Program.Calls.bind (hbody.tryCatch fun e => ?_) fun _ => ?_
  · cases e with
    | error => exact putsOwn_of_makes (makes_failed (by decide))
    | exit => exact .throw _
  · refine putsOwn_of_makes (makes_release ?_ ?_ ?_ ?_ ?_)
    all_goals decide

/-! ### Every step of another run -/

/-- The calls of the runs looked at, each made as the Lease's protocol has it. -/
noncomputable abbrev granted (setup : Setup) (p : PodName) (w : World) (move : Move PodName Call Choice Env) :
    Bool :=
  (protocol false).granting machine (settledRun setup p) w move

/-- Two runs do not both hold the Lease. -/
theorem Owner.unique (hp : Owner w p) (hq : Owner w q) : p = q :=
  Option.some.inj (hp.1.symm.trans hq.1)

/-- A write of the bucket by a run that may make it, which leaves the manifest absent. -/
theorem aside_of_object {bucket : Bucket} (written : List JString) (hq : q ≠ p) (he : Owner w q)
    (habsent : w.bucket.get (setup.manifestKey p) = none → bucket.get (setup.manifestKey p) = none) :
    Aside setup p w { w with bucket := bucket, written := written } :=
  ⟨rfl, rfl, Int.le_refl _, habsent, fun _ => rfl, fun hp => absurd (he.unique hp) hq,
    fun _ => ⟨rfl, rfl⟩, fun _ _ => rfl⟩

theorem putObject_aside {key : JString} {body : Body} (hid : Function.Injective setup.id) (hq : q ≠ p)
    (hown : Own setup q key) (he : Owner w q) : Aside setup p w (w.putObject key body) := by
  refine aside_of_object (key :: w.written) hq he fun hn => ?_
  have hne : setup.manifestKey p ≠ key := by
    rintro rfl
    exact hq (hown.unique hid (.inr Key_json))
  rw [Bucket.get_put, if_neg hne]
  exact hn

theorem deleteObject_aside {key : JString} (hq : q ≠ p) (he : Owner w q) :
    Aside setup p w (w.deleteObject key) := by
  refine aside_of_object w.written hq he fun hn => ?_
  rw [Bucket.get_delete]
  split
  · rfl
  · exact hn

/-- A status patch of another run leaves the record of the Lease's owner, and its last status. -/
theorem patchStatus_aside {data : Status} (hq : q ≠ p) (he : Entitled w q (.patchStatus data))
    (ho : Owner w p → w.status.final p = true → w.took q ≠ none) :
    Aside setup p w (w.patchStatus data) := by
  have htaken : Owner w p → w.took q = none ∧ data.Brief := fun hp =>
    he.resolve_right fun hown => hq (hown.unique hp)
  exact ⟨rfl, rfl, Int.le_refl _, id, fun _ => rfl, fun _ => rfl, fun hp => (htaken hp).2.patch _,
    fun hp hf => absurd (htaken hp).1 (ho hp hf)⟩

/-- Another run's step leaves a run and its report alone. -/
theorem other_aside {c : Call} {choice : Choice} {r : c.Ret} (hid : Function.Injective setup.id) (hq : q ≠ p)
    (hputs : PutsOwn setup q c) (ha : granted setup p w (.act q c choice) = true)
    (h : perform q c choice w = some (r, w')) : Aside setup p w w' := by
  obtain ⟨hal, hinv, ⟨-, he⟩, hg⟩ := Protocol.granting_iff.mp ha
  obtain ⟨-, hg⟩ := hg r w' h
  by_cases hc : c.kind ∈ reportless
  · exact (perform_sameReport hc h).aside
  cases c with
  | patchLease =>
    rcases perform_cases h with rfl | rfl
    · exact (SameReport.refl w').aside
    · exact ⟨rfl, hg.took p (Ne.symm hq), Int.le_refl _, id, hg.lease p (Ne.symm hq), fun _ => rfl,
        fun _ => ⟨rfl, rfl⟩, fun _ _ => rfl⟩
  | patchStatus =>
    rcases Fallible.write_cases h with ⟨hl, rfl, -⟩ | ⟨-, rfl, -⟩
    · refine patchStatus_aside hq he fun hp hf htook => ?_
      simp [settledRun, hq, overwrites, hl, htook, hp.1, hf] at hal
    · exact (SameReport.refl w').aside
  | putObject =>
    rcases perform_cases h with rfl | rfl
    · exact (SameReport.refl w').aside
    · exact putObject_aside hid hq hputs he
  | deleteObject =>
    rcases perform_cases h with rfl | rfl
    · exact (SameReport.refl w').aside
    · exact deleteObject_aside hq he
  | _ => exact absurd (by simp [Call.kind, reportless]) hc

end CartyxInfra.Backup
