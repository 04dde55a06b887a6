/-
Retention over whole histories of backups.

With runs at any later times, new backups in between, and runs that fail half
way, what is left of a bucket stands for all that was ever put there.
-/
import CartyxInfra.Backup.RetentionPolicy

namespace CartyxInfra.Backup

open JString

variable {setup : Setup} {w w' : World} {h : Bucket} {p : PodName} {s : Variables}
  {choose : Call → World → Choice}

/-- How a bucket came to be as it is: the first bucket holds all that was ever
put there and not replaced, the world's holds what is left of it. -/
inductive Past (setup : Setup) : Bucket → World → Prop
  | start {w : World} : w.bucket.Ordered → Past setup w.bucket w
  | put {h : Bucket} {w : World} (o : Stored) : Past setup h w → (∀ x ∈ h, x.key ≠ o.key) →
      Past setup (h.put o) { w with bucket := w.bucket.put o }
  | tick {h : Bucket} {w : World} (ms : Nat) : Past setup h w → Past setup h { w with clock := w.clock + ms }
  /-- A run of `retireOldBackups`, whatever fails in it. -/
  | retire {h : Bucket} {w w' : World} {p : PodName} {choose : Call → World → Choice} {s : Variables}
      {out : Except Stop Unit × Variables} : Past setup h w →
      Program.exec (machine.alone always p choose) (retireOldBackups setup) s w = some (out, w') →
        Past setup h w'

/-- What is left stands for the history. -/
structure Remains (setup : Setup) (h : Bucket) (w : World) : Prop where
  ordered : h.Ordered
  left : w.bucket.Sublist h
  stands : policy.Stands w.clock (completed setup w.bucket) (completed setup h)

theorem Remains.bucket (hr : Remains setup h w) : w.bucket.Ordered := hr.ordered.sublist hr.left

theorem Remains.put {o : Stored} (hr : Remains setup h w) (hnew : ∀ x ∈ h, x.key ≠ o.key) :
    Remains setup (h.put o) { w with bucket := w.bucket.put o } := by
  have hnew' : ∀ x ∈ w.bucket, x.key ≠ o.key := fun x hx => hnew x (hr.left.subset hx)
  refine ⟨hr.ordered.put o, ?_, ?_⟩
  · refine (hr.bucket.put o).sublist_of_subset (hr.ordered.put o) fun x hx => ?_
    exact (Bucket.mem_put_iff hnew).mpr
      (((Bucket.mem_put_iff hnew').mp hx).imp (fun hx => hr.left.subset hx) id)
  · rw [completed_put hnew, completed_put hnew']
    exact hr.stands.add _

theorem Remains.retire {out : Except Stop Unit × Variables} (hr : Remains setup h w)
    (hrun : Program.exec (machine.alone always p choose) (retireOldBackups setup) s w = some (out, w')) :
    Remains setup h w' := by
  have hw := retireOldBackups_without hr.bucket hrun
  obtain ⟨hprune, hsub⟩ := completed_without hr.bucket hw
  refine ⟨hr.ordered, hw.sublist.trans hr.left, ?_⟩
  rw [hw.clock]
  exact hr.stands.between finite_completed hprune hsub

/-- By induction over the past. -/
theorem Past.remains (past : Past setup h w) : Remains setup h w := by
  induction past with
  | start hb => exact ⟨hb, .refl _, .refl _⟩
  | put o _ hnew ih => exact ih.put hnew
  | tick ms _ ih => exact ⟨ih.ordered, ih.left, ih.stands.later (Int.le_add_of_nonneg_right (by omega))⟩
  | retire _ hrun ih => exact ih.retire hrun

/-- A second run at once finds nothing to delete. -/
theorem retired_retired {b : Bucket} {time : Int} (hb : b.Ordered) :
    retired setup time (retired setup time b) = retired setup time b := by
  have hord : (retired setup time b).Ordered := ordered_expireAll hb
  have hnone : expired time (manifests (listing setup (retired setup time b))) [] = [] := by
    rw [List.eq_nil_iff_forall_not_mem]
    intro e he
    obtain ⟨hec, hek⟩ := (mem_expired_listing hord).mp he
    have hec' : e ∈ completed setup (retired setup time b) := hec
    rw [completed_retired hb] at hec' hek
    rw [← policy.prune_prune finite_completed] at hec'
    exact hek hec'.2
  rw [retired, hnone, List.foldl_nil]

/-- The loop over an incomplete listing leaves what the full one leaves. -/
theorem incomplete_without {found : List Entry} {time : Int} (hb : w.bucket.Ordered)
    (hf : found.Sublist (listing setup w.bucket))
    (hw : Without (expired time (manifests found) []) w w') {o : Stored}
    (ho : o ∈ retired setup time w.bucket) : o ∈ w'.bucket := by
  obtain ⟨hob, hrest⟩ := mem_expireAll.mp ho
  exact hw.rest o hob fun e he => hrest e (expired_of_sublist (listing_ordered hb) hf he)

/-- A deletion stays under the prefix. -/
def Scoped (pre : JString) (c : Call) : Prop := ∀ key, c = .deleteObject key → pre <+: key

theorem scoped_of_read {m : Js α} {pre : JString} (h : Makes [.read] true m) : m.Calls (Scoped pre) true := by
  refine h.mono (fun c hc key hk => ?_) id
  subst hk
  simp [Call.kind] at hc

theorem scoped_deleteObject {pre key : JString} (h : pre <+: key) :
    (deleteObject key).Calls (Scoped pre) true := by
  have hcall : Scoped pre (.deleteObject key) := by
    intro key' hk
    cases hk
    exact h
  exact (Program.Calls.make hcall).bind fun r => scoped_of_read (.await r)

theorem scoped_expire {pre : JString} {entry : Entry} : (expire pre entry).Calls (Scoped pre) true := by
  unfold expire
  by_cases hpre : pre.isPrefixOf (archiveKey entry.key) = true
  · have hkey : pre <+: archiveKey entry.key := List.isPrefixOf_iff_prefix.mp hpre
    have hentry : pre <+: entry.key := hkey.trans (List.take_prefix ..)
    exact (scoped_of_read (.throwIf _ _)).bind fun _ =>
      (scoped_deleteObject hentry).bind fun _ => scoped_deleteObject hkey
  · have hthrow : (!pre.isPrefixOf (archiveKey entry.key) ||
        !endsWith (archiveKey entry.key) (utf16 ".tar.gz")) = true := by simp [hpre]
    simp only [throwIf, hthrow, if_true]
    exact .throw _

theorem scoped_retire {pre : JString} (entries : List Entry) (weeks : List Int) :
    (retire pre entries weeks).Calls (Scoped pre) true := by
  induction entries generalizing weeks with
  | nil => exact .pure _
  | cons entry rest ih =>
    refine (scoped_of_read (makes_now (by simp))).bind fun time =>
      Program.Calls.bind ?_ fun _ => ih _
    unfold expireUnless
    split
    · exact .pure _
    · exact scoped_expire

/-- Whatever the bucket answers, and whatever else goes on in it. -/
theorem scoped_retireOldBackups : (retireOldBackups setup).Calls (Scoped setup.pre) true :=
  (scoped_of_read (makes_listEntries (by simp) _ _ _)).bind fun _ => scoped_retire _ _

/-! ## The theorem -/

/-- **Retention is exact.** After whatever runs before, a run of
`retireOldBackups` in which nothing fails leaves the completed backups that the
same run would leave of the whole history: those of at most 14 days, and of
each UTC week the newest of at most 56 days. Run again it deletes nothing, with
an incomplete listing its loop deletes nothing else, and it deletes nothing
outside the namespace's prefix. -/
theorem retention_exact (past : Past setup h w) (hpages : h.length < setup.pages) (hc : Succeeds choose) :
    ∃ w' w'',
      Program.exec (machine.alone always p choose) (retireOldBackups setup) s w = some ((.ok (), s), w') ∧
      Program.exec (machine.alone always p choose) (retireOldBackups setup) s { w with bucket := h } =
        some ((.ok (), s), w'') ∧
      completions setup w'.bucket = completions setup w''.bucket ∧
      (∀ e, e ∈ completions setup w'.bucket ↔ e ∈ completions setup h ∧
        (w.clock - e.lastModified ≤ 14 * day ∨ w.clock - e.lastModified ≤ 56 * day ∧
          ∀ e' ∈ completions setup h, utcWeek e'.lastModified = utcWeek e.lastModified → ¬ Newer e' e)) ∧
      Program.exec (machine.alone always p choose) (retireOldBackups setup) s w' = some ((.ok (), s), w') ∧
      (∀ found choose w₃ out, found.Sublist (listing setup w.bucket) →
        Program.exec (machine.alone always p choose) (retire setup.pre (manifests found) []) s w =
            some (out, w₃) →
          ∀ o ∈ w'.bucket, o ∈ w₃.bucket) ∧
      (retireOldBackups setup).Calls (Scoped setup.pre) true := by
  have hr := past.remains
  have hlen : w.bucket.length < setup.pages := Nat.lt_of_le_of_lt hr.left.length_le hpages
  have hord : (retired setup w.clock w.bucket).Ordered := ordered_expireAll hr.bucket
  have hpruned : completed setup (retired setup w.clock w.bucket) =
      policy.prune w.clock (completed setup h) := by
    rw [completed_retired hr.bucket, hr.stands.prune_eq]
  have hagain : Program.exec (machine.alone always p choose) (retireOldBackups setup) s
      { w with bucket := retired setup w.clock w.bucket } = _ :=
    exec_retireOldBackups hc hord (Nat.lt_of_le_of_lt length_expireAll hlen)
  refine ⟨_, _, exec_retireOldBackups hc hr.bucket hlen, exec_retireOldBackups hc hr.ordered hpages,
    ?_, fun e => ?_, ?_, fun found _ w₃ out hf hrun o ho => ?_, scoped_retireOldBackups⟩
  · exact completions_eq hord (ordered_expireAll hr.ordered)
      (hpruned.trans (completed_retired hr.ordered).symm)
  · exact Set.ext_iff.mp hpruned e
  · rw [retired_retired hr.bucket] at hagain
    exact hagain
  · exact incomplete_without hr.bucket hf (retire_without _ _ hrun) ho

/-- The manifests of two backups of one week. -/
def monday : Stored := ⟨utf16 "cartyx-data/dev/cluster/a.tar.gz.json", 4 * day, .bytes []⟩

/-- A manifest of the day after. -/
def tuesday : Stored := ⟨utf16 "cartyx-data/dev/cluster/b.tar.gz.json", 5 * day, .bytes []⟩

/-- A listing of at most three pages. -/
def weekSetup : Setup := { sampleSetup with pages := 3 }

/-- The bucket on Tuesday. -/
def weekHistory : Bucket := (Bucket.put [] monday).put tuesday

/-- A run on the tenth day has left both, and three weeks have passed. -/
def afterWeeks : World :=
  { atRest with clock := 31 * day, bucket := retired weekSetup (10 * day) weekHistory }

theorem retention_exact_sample : ∃ w',
    Program.exec (machine.alone always first fun _ _ => {}) (retireOldBackups weekSetup) ⟨none, false, false⟩
      afterWeeks = some ((.ok (), ⟨none, false, false⟩), w') ∧
    ∀ e, e ∈ completions weekSetup w'.bucket ↔ e = tuesday.entry := by
  have hc : Succeeds fun _ _ => {} := fun _ _ => ⟨rfl, Nat.succ_ne_zero _⟩
  have hput : Past weekSetup weekHistory { atRest with clock := 10 * day, bucket := weekHistory } :=
    (((Past.start (w := atRest) .nil).put monday (by decide)).put tuesday (by decide)).tick (10 * 86400000)
  have hord : weekHistory.Ordered := (Bucket.Ordered.put .nil monday).put tuesday
  have hleft : Past weekSetup weekHistory
      { atRest with clock := 10 * day, bucket := retired weekSetup (10 * day) weekHistory } :=
    hput.retire (p := first) (s := ⟨none, false, false⟩) (exec_retireOldBackups hc hord (by decide))
  have hpast : Past weekSetup weekHistory afterWeeks := hleft.tick (21 * 86400000)
  obtain ⟨w', -, hexec, -, -, hexact, -⟩ :=
    retention_exact (p := first) (s := ⟨none, false, false⟩) hpast (by decide) hc
  have hall : completions weekSetup weekHistory = [monday.entry, tuesday.entry] := by decide
  have hnewer : Newer tuesday.entry monday.entry := .inl (by decide)
  refine ⟨w', hexec, fun e => (hexact e).trans ?_⟩
  rw [hall]
  constructor
  · rintro ⟨he, hkept⟩
    rcases List.mem_pair.mp he with rfl | rfl
    · rcases hkept with hyoung | ⟨-, hnewest⟩
      · exact absurd hyoung (by decide)
      · exact absurd hnewer (hnewest _ (by simp) (by decide))
    · rfl
  · rintro rfl
    refine ⟨by simp, .inr ⟨by decide, fun e' he' _ => ?_⟩⟩
    rcases List.mem_pair.mp he' with rfl | rfl
    · exact hnewer.asymm
    · exact Newer.irrefl _

end CartyxInfra.Backup
