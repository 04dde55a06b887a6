/-
Taking the Lease, giving it back, and a whole run between: `main` keeps to the
protocol, and with it every pool of runs.
-/
import CartyxInfra.Backup.Holding

namespace CartyxInfra.Backup

open JString

variable {fenced : Bool} {p : PodName}

/-! ## Taking the Lease -/

/-- The Lease as it was read, and what its version says of it since. -/
structure Seen (lease : Lease) (w : World) : Prop where
  version : lease.resourceVersion ≤ w.lease.resourceVersion
  same : w.lease.resourceVersion = lease.resourceVersion → w.lease = lease
  born : ∀ h, lease.holderIdentity = some h → w.life h ≠ .unborn

/-- A `recover` run that has found the holder's pod ended. -/
structure Recovering (p : PodName) (lease : Lease) (holder : PodName) (s : Variables) (w : World) : Prop where
  idle : Idle p s w
  seen : Seen lease w
  ended : w.life holder = .dead

theorem Foreign.unversioned {lease : Lease} {w w' : World} (h : Foreign fenced p w w') (hs : Seen lease w)
    (hv : w'.lease.resourceVersion = lease.resourceVersion) :
    w.lease.resourceVersion = lease.resourceVersion :=
  Nat.le_antisymm (hv ▸ h.version) hs.version

theorem seen_local {lease : Lease} : Local fenced p fun _ w => Seen lease w := by
  refine fun s w w' hf h => ⟨Nat.le_trans h.version hf.version, fun hv => ?_, fun holder hh =>
    hf.born holder (h.born holder hh)⟩
  have hw := hf.unversioned h hv
  rw [hf.fresh (hv.trans hw.symm), h.same hw]

theorem recovering_local {lease : Lease} {holder : PodName} : Local fenced p (Recovering p lease holder) :=
  fun s w w' hf h => ⟨idle_local s w w' hf h.idle, seen_local s w w' hf h.seen, hf.dead holder h.ended⟩

theorem recovering_mended {lease : Lease} {holder : PodName} (hh : lease.holderIdentity = some holder)
    (done : List Path) :
    Local fenced p (Mended p (Recovering p lease holder)
      (fun w => w.lease.resourceVersion = lease.resourceVersion) done) := by
  refine fun s w w' hf ⟨h, hs, hup⟩ => ⟨recovering_local s w w' hf h,
    fun hd => by rw [hf.scaled]; exact hs hd, fun hv path hp => ?_⟩
  have hw := hf.unversioned h.seen hv
  exact hf.up holder (by rw [h.seen.same hw]; exact hh) (.inr h.ended) path (hup hw path hp)

theorem recovering_turn {lease : Lease} {holder : PodName} {s : Variables} {w : World} {path : Path}
    (h : Recovering p lease holder s w) : Recovering p lease holder s (w.turn p path true) := by
  refine ⟨⟨⟨by rw [turn_life]; exact h.idle.alive, h.idle.unlocked, fun hs => ?_⟩,
    by rw [turn_took]; exact h.idle.untaken⟩,
      ⟨by rw [turn_lease]; exact h.seen.version, by rw [turn_lease]; exact h.seen.same,
      by rw [turn_life]; exact h.seen.born⟩, by rw [turn_life]; exact h.ended⟩
  rcases turn_scaled_self hs with hs | hoff
  · exact h.idle.unscaled hs
  · cases hoff

theorem patchLease_took {q : PodName} {w : World} {patch : LeasePatch} (hq : q ≠ p) :
    (w.patchLease p patch).took q = w.took q := by
  unfold World.patchLease
  split
  · exact Function.update_of_ne hq ..
  · rfl

theorem patchLease_untaken {w : World} {patch : LeasePatch} (hw : LeaseInv w) (hl : w.life p = .live)
    (q : PodName) (hq : (w.patchLease p patch).life q = .unborn) : (w.patchLease p patch).took q = none := by
  have hne : q ≠ p := by
    rintro rfl
    exact absurd (hl.symm.trans hq) nofun
  rw [patchLease_took hne]
  exact hw.untaken q hq

theorem patchLease_guarantee {w : World} {patch : LeasePatch} (h : ∀ q, q ≠ p → ¬ Owner w q) :
    Guarantee fenced p w (w.patchLease p patch) where
  life _ _ := rfl
  born _ hq := hq
  dead _ hq := hq
  took _ hq := patchLease_took hq
  scaled _ _ := rfl
  version := Nat.le_succ _
  fresh hv := absurd hv (Nat.succ_ne_self _)
  lease q hq ho := absurd ho (h q hq)
  up _ _ hu := hu
  fenced _ q hq ho := absurd ho (h q hq)

theorem verified_getLease :
    Verified fenced p (Idle p) getLease (fun lease s w => Idle p s w ∧ Seen lease w)
      fun _ => Consistent p := by
  refine triple_call idle_local.stable fun s w hw hi => ⟨⟨nofun, trivial⟩, fun choice r w' hr _ => ?_⟩
  have hu := perform_unchanged (p := p) (c := .getLease) rfl hr
  have hi' : Idle p s w' := idle_local s w w' (hu.foreign : Foreign fenced p w w') hi
  refine ⟨hw.unchanged hu, hu.guarantee, ?_⟩
  simp only [perform, Fallible.read, Fallible.reply, Option.some.injEq, Prod.mk.injEq] at hr
  obtain ⟨rfl, rfl⟩ := hr
  split
  · exact .inl ⟨w.lease, rfl, hi', Nat.le_refl _, fun _ => rfl, fun h hh => (hw.held h hh).2⟩
  · next message _ => exact .inr ⟨message, rfl, hi'.consistent⟩

theorem verified_acquire {lease : Lease} (hfree : lease.holderIdentity = none) :
    Verified fenced p (fun s w => Idle p s w ∧ Seen lease w) (acquire p lease)
      (fun _ s w => Holding p s w ∧ Settled p w) fun _ => Consistent p := by
  refine Triple.bind (Q := fun _ s w => (Idle p s w ∧ Seen lease w) ∧ s.original = some original)
    (Triple.modify fun s w ⟨hi, hs⟩ =>
      ⟨⟨⟨⟨hi.alive, hi.unlocked, hi.unscaled⟩, hi.untaken⟩, hs⟩, rfl⟩) fun _ => ?_
  refine Triple.bind (Q := fun _ s w => Unlocked p s w ∧ Owner w p ∧ s.original = some original ∧ Settled p w)
    (Triple.conseq (Verified.write writes_patchLease nofun
      ((idle_local.and seen_local).and .const) (fun _ _ _ => trivial) ?_) (fun _ _ _ h => h)
      (fun _ _ _ h => h) ?_) fun _ => ?_
  · rintro s w choice hw ⟨⟨hi, hs⟩, ho⟩ hfits - -
    have hlease : w.lease.holderIdentity = none := by rw [hs.same (hfits _ rfl)]; exact hfree
    have hnone : ∀ q, w.lease.holderIdentity ≠ some q := fun q => by simp [hlease]
    refine ⟨⟨nofun, ?_, fun q hl hq => absurd (hw.owned q hl hq) (hnone q), hw.unscaled, ?_⟩,
      patchLease_guarantee fun q _ h => hnone q h.1, ⟨hi.alive, hi.unlocked, hi.unscaled⟩,
      ⟨rfl, hi.alive⟩, ho, fun path => restored_iff.mp (hw.free hlease) path, hi.unscaled⟩
    · intro q hq
      obtain rfl : p = q := by simpa [effect, World.patchLease, Lease.patch] using hq
      exact ⟨rfl, by simp [effect, World.patchLease, hi.alive]⟩
    · exact patchLease_untaken hw hi.alive
  · rintro e s w (⟨⟨hi, -⟩, -⟩ | ⟨hi, -⟩)
    · exact hi.consistent
    · exact .inl hi
  · exact Triple.modify fun s w ⟨_, hown, ho, hset⟩ => ⟨⟨hown, rfl, ho⟩, hset⟩

theorem verified_getPod {lease : Lease} {holder : PodName} (hh : lease.holderIdentity = some holder) :
    Verified fenced p (fun s w => Idle p s w ∧ Seen lease w) (getPod holder)
      (fun phases s w => (Idle p s w ∧ Seen lease w) ∧
        (phases.any Phase.active = false → w.life holder = .dead))
      fun _ => Consistent p := by
  have hlocal : Local fenced p fun s w => Idle p s w ∧ Seen lease w := idle_local.and seen_local
  refine triple_call hlocal.stable fun s w hw hi => ⟨⟨nofun, trivial⟩, fun choice r w' hr _ => ?_⟩
  have hu := perform_unchanged (p := p) (c := .getPod holder) rfl hr
  have hi' := hlocal s w w' hu.foreign hi
  refine ⟨hw.unchanged hu, hu.guarantee, ?_⟩
  simp only [perform, Fallible.read, Fallible.reply] at hr
  split at hr
  · cases hr
  · next hlive =>
    simp only [Option.some.injEq, Prod.mk.injEq] at hr
    obtain ⟨rfl, rfl⟩ := hr
    split
    · refine .inl ⟨_, rfl, hi', fun hph => ?_⟩
      have hborn := hi.2.born holder hh
      cases hlife : w.life holder with
      | unborn => exact absurd hlife hborn
      | live => exact absurd ⟨hlife, by simpa using hph⟩ hlive
      | dead => rfl
    · next message _ => exact .inr ⟨message, rfl, hi'.1.consistent⟩

/-! ## Giving it back -/

/-- The release of the Lease by a `recover` run, if it is still as it was read. -/
theorem verified_recoveredRelease {lease : Lease} {holder : PodName}
    (hh : lease.holderIdentity = some holder) :
    Verified fenced p
      (Mended p (Recovering p lease holder) (fun w => w.lease.resourceVersion = lease.resourceVersion) every)
      (patchLease { resourceVersion := some lease.resourceVersion, holderIdentity := none })
      (fun _ => Idle p) fun _ => Idle p := by
  refine Triple.conseq (Verified.write writes_patchLease nofun (recovering_mended hh every)
    (fun _ _ _ => trivial) (B := Idle p) ?_) (fun _ _ _ h => h) (fun _ _ _ h => h)
    fun _ s w h => h.elim (fun h => h.1.idle) id
  rintro s w choice hw ⟨h, -, hup⟩ hfits - -
  have hv : w.lease.resourceVersion = lease.resourceVersion := hfits _ rfl
  have hlease : w.lease.holderIdentity = some holder := by rw [h.seen.same hv]; exact hh
  have hended : ∀ q, w.lease.holderIdentity = some q → w.life q ≠ .live := by
    intro q hq hl
    obtain rfl : holder = q := by simpa [hlease] using hq
    rw [h.ended] at hl
    cases hl
  refine ⟨⟨fun _ => restored_iff.mpr fun path => ?_, nofun, fun q hl hs =>
    absurd hl (hended q (hw.owned q hl hs)), hw.unscaled, patchLease_untaken hw h.idle.alive⟩,
    patchLease_guarantee fun q _ ho => hended q ho.1 ho.2,
    ⟨h.idle.alive, h.idle.unlocked, h.idle.unscaled⟩, h.idle.untaken⟩
  exact hup hv path (mem_every path)

/-- The last status of a `recover` run, which has taken no Lease. -/
theorem verified_recoveredStatus {data : Status} (hd : data.Brief) :
    Verified fenced p (Idle p) (patchStatus data) (fun _ => Idle p) fun _ => Idle p := by
  refine Triple.conseq (Verified.write writes_patchStatus nofun idle_local (B := Idle p)
    (fun _ _ hi => .inl ⟨hi.untaken, hd⟩) ?_) (fun _ _ _ h => h) (fun _ _ _ h => h) fun _ _ _ h => h.elim id id
  rintro s w choice hw hi - - -
  have hu : Unchanged w (effect p (.patchStatus data) choice w) :=
    ⟨rfl, rfl, rfl, rfl, fun _ => rfl, fun _ => rfl⟩
  exact ⟨hw.unchanged hu, hu.guarantee, idle_local s w _ (hu.foreign : Foreign fenced p w _) hi⟩

/-- The release of the Lease by its holder. -/
theorem verified_release :
    Verified fenced p (fun s w => Holding p s w ∧ Settled p w) (patchLease { holderIdentity := none })
      (fun _ _ _ => True) fun _ _ _ => True := by
  refine Triple.conseq (Verified.write writes_patchLease (by simp) settled_local
    (fun _ _ _ => trivial) (B := fun _ _ => True) ?_)
    (fun _ _ _ h => h) (fun _ _ _ h => h) fun _ _ _ _ => trivial
  rintro s w choice hw ⟨h, hup, hns⟩ - - -
  have hsame : ∀ q, w.lease.holderIdentity = some q → q = p := by
    intro q hq
    simpa [eq_comm] using h.owner.1.symm.trans hq
  refine ⟨⟨fun _ => restored_iff.mpr hup, fun q hq => ?_, fun q hl hs => ?_, hw.unscaled,
    patchLease_untaken hw h.owner.2⟩,
    patchLease_guarantee fun q hq ho => hq (hsame q ho.1), trivial⟩
  · cases hq
  · obtain rfl := hsame q (hw.owned q hl hs)
    exact absurd hs hns

/-! ## Runs -/

theorem verified_recover {lease : Lease} :
    Verified fenced p (fun s w => Idle p s w ∧ Seen lease w) (recover lease)
      (fun _ => Consistent p) fun _ => Consistent p := by
  unfold recover
  split
  · exact Triple.throw _ fun s w h => h.1.consistent
  · next holder hh =>
    refine Triple.bind (verified_getPod hh) fun phases => ?_
    refine Triple.bind (Q := fun _ => Recovering p lease holder)
      (Triple.post (Triple.throwIf fun s w h => h.1.1.consistent) fun _ s w h =>
        ⟨h.1.1.1, h.1.1.2, h.1.2 h.2⟩) fun _ => ?_
    split
    · exact Triple.throw _ fun s w h => h.idle.consistent
    · next previous hp =>
      refine Triple.bind (Triple.throwIf fun s w h => h.idle.consistent) fun _ => ?_
      refine Triple.extract (c := previous = original)
        (fun s w h => by simpa [original] using h.2) fun he => ?_
      subst he
      refine Triple.bind (Q := fun _ => Mended p (Recovering p lease holder)
        (fun w => w.lease.resourceVersion = lease.resourceVersion) every) (Triple.conseq (verified_resume
        (recovering_mended hh) (fun _ _ h => .inl ⟨rfl, h.idle.untaken⟩) (fun _ _ _ => recovering_turn)
        fun _ _ hv => by rwa [turn_lease] at hv)
        (fun _ _ _ h => h.1)
        (fun _ s w h => ⟨h.1, fun _ => h.2.1, fun hv path _ => restored_iff.mp (h.2.2 hv) path⟩)
        fun _ s w h => h.idle.consistent) fun _ => ?_
      refine Triple.bind (Triple.conseq (verified_recoveredRelease hh) (fun _ _ _ h => h)
        (fun _ _ _ h => h) fun _ s w h => h.consistent) fun _ => ?_
      refine Triple.bind (Triple.conseq (verified_recoveredStatus ⟨rfl, rfl⟩) (fun _ _ _ h => h) (fun _ _ _ h => h)
        fun _ s w h => h.consistent) fun _ => ?_
      exact Triple.throw _ fun s w h => h.consistent

theorem verified_backup {setup : Setup} {lease : Lease} :
    Verified fenced p (fun s w => Idle p s w ∧ Seen lease w) (backup setup p lease)
      (fun _ => Consistent p) fun _ => Consistent p := by
  refine Triple.bind (Triple.throwIf fun s w h => h.1.consistent) fun _ => ?_
  refine Triple.extract (c := lease.holderIdentity = none) (fun s w h => by simpa using h.2) fun hfree => ?_
  refine Triple.bind (Triple.conseq
    (Verified.reads (makes_preflight (by decide) (by decide)) (idle_local.and seen_local))
    (fun _ _ _ h => h.1) (fun _ _ _ h => h) fun _ s w h => h.1.consistent) fun _ => ?_
  refine Triple.bind (verified_acquire hfree) fun _ => ?_
  refine Triple.bind (Verified.settled (makes_now (by decide))) fun lastAttempt => ?_
  refine Triple.bind (Verified.settled (makes_patchStatus (by decide))) fun _ => ?_
  refine Triple.bind (Q := fun _ => Busy fenced p []) (Triple.modify fun s w ⟨h, _⟩ =>
    ⟨⟨h.owner, h.locked, h.original⟩, rfl, by simp⟩) fun _ => ?_
  refine Triple.bind verified_suspend fun read => ?_
  refine Triple.bind verified_scaleDown fun _ => Triple.bind verified_scaleDown fun _ => ?_
  refine Triple.bind verified_archive fun out => ?_
  refine Triple.bind (Triple.conseq verified_resumeOriginal (fun s w _ h => ⟨h.1, h.2.1⟩)
    (fun _ _ _ h => h) fun _ _ _ h => h.consistent) fun _ => ?_
  refine Triple.bind (Q := fun _ s w => Holding p s w ∧ Settled p w) (Triple.modify fun s w ⟨h, hs⟩ =>
    ⟨⟨h.owner, h.locked, h.original⟩, hs⟩) fun _ => ?_
  refine Triple.bind (Verified.settled (makes_patchStatus (by decide))) fun _ => ?_
  refine Triple.bind (Verified.settled (makes_publish (by decide) (by decide))) fun completion => ?_
  refine Triple.bind (Verified.settled (makes_retireOldBackups (by decide) (by decide))) fun _ => ?_
  refine Triple.bind (Verified.settled (makes_now (by decide))) fun lastSuccess => ?_
  exact Triple.conseq (Verified.settled (makes_patchStatus (by decide))) (fun _ _ _ h => h)
    (fun _ s w h => consistent_of_settled h)
    fun _ _ _ h => h

theorem verified_body {setup : Setup} {mode : Mode} :
    Verified fenced p (Idle p) (body setup p mode) (fun _ => Consistent p) fun _ => Consistent p := by
  refine Triple.bind verified_getLease fun lease => ?_
  cases mode with
  | recover => exact verified_recover
  | backup => exact verified_backup

/-- A holder whose services are settled unless it owes their recovery. -/
def Leaving (p : PodName) (s : Variables) (w : World) : Prop :=
  Holding p s w ∧ (s.needsRecovery = false → Settled p w)

theorem leaving_local : Local fenced p (Leaving p) := fun s w w' hf ⟨hh, hn⟩ =>
  ⟨holding_local s w w' hf hh, fun he => (settled_local s w w' hf ⟨hh, hn he⟩).2⟩

theorem verified_resumeIfNeeded :
    Verified fenced p (Leaving p) resumeIfNeeded (fun _ s w => Holding p s w ∧ Settled p w)
      fun _ _ _ => True := by
  refine Triple.read fun vars => ?_
  split
  · next hn =>
    exact Triple.conseq verified_resumeOriginal (fun s w _ ⟨hv, h, _⟩ => ⟨h, hv ▸ hn⟩)
      (fun _ _ _ h => h) fun _ _ _ _ => trivial
  · next hn =>
    exact Triple.pure _ fun s w ⟨hv, h, hs⟩ => ⟨h, hs (by rw [← hv]; simpa using hn)⟩

theorem verified_recoverServices :
    Verified fenced p (Leaving p) recoverServices
      (fun recovered s w => recovered = true → Holding p s w ∧ Settled p w) fun _ _ _ => True := by
  have back : Verified fenced p (Leaving p) (do resumeIfNeeded; pure true : Js Bool)
      (fun recovered s w => recovered = true → Holding p s w ∧ Settled p w) fun _ _ _ => True :=
    Triple.bind verified_resumeIfNeeded fun _ => Triple.pure _ fun _ _ h _ => h
  refine Triple.tryCatch back fun e => ?_
  cases e with
  | error => exact Triple.pure _ fun _ _ _ h => by cases h
  | exit => exact Triple.throw _ fun _ _ _ => trivial

theorem verified_finally :
    Verified fenced p (Consistent p) release (fun _ _ _ => True) fun _ _ _ => True := by
  refine Triple.read fun vars => ?_
  split
  · next hl =>
    refine Triple.conseq (Triple.bind verified_recoverServices fun recovered => ?_) ?_
      (fun _ _ _ h => h) fun _ _ _ h => h
    · split
      · next hr =>
        exact Triple.conseq verified_release (fun s w _ h => h hr) (fun _ _ _ h => h) fun _ _ _ h => h
      · exact Triple.pure _ fun _ _ _ => trivial
    · rintro s w - ⟨rfl, h | h⟩
      · exact absurd hl (by simp [h.unlocked])
      · exact h
  · exact Triple.pure _ fun _ _ _ => trivial

/-- The `catch` clause reports for a holder only. -/
theorem verified_failed {message : JString} :
    Verified fenced p (Consistent p) (failed message) (fun _ => Consistent p) fun _ _ _ => True := by
  refine Triple.read fun vars => ?_
  split
  · next hl =>
    refine Triple.conseq (B := Leaving p) (R := fun _ => Leaving p) (F := fun _ => Leaving p)
      (Quiet.verified (makes_ignoringErrors (makes_patchStatus (by decide))) leaving_local
        fun _ _ h => h.1.owner) ?_ (fun _ _ _ h => .inr h) fun _ _ _ _ => trivial
    rintro s w - ⟨rfl, h | h⟩
    · exact absurd hl (by simp [h.unlocked])
    · exact h
  · exact Triple.pure _ fun s w h => h.2

/-- A run keeps to the protocol from its first call to its last. -/
theorem verified_main {setup : Setup} {mode : Mode} :
    Verified fenced p (Idle p) (main setup p mode) (fun _ _ _ => True) fun _ _ _ => True := by
  refine Triple.bind (Q := fun _ => Consistent p) ?_ fun _ => verified_finally
  refine Triple.tryCatch verified_body fun e => ?_
  cases e with
  | error => exact verified_failed
  | exit => exact Triple.throw _ fun _ _ _ => trivial

/-! ## Pools -/

/-- A run's first and last moments: nothing changes but its own life. -/
theorem Guarantee.of_life {w : World} {life : Life} (hborn : life ≠ .unborn)
    (hdead : w.life p = .dead → life = .dead) :
    Guarantee fenced p w { w with life := Function.update w.life p life } where
  life q hq := Function.update_of_ne hq ..
  born q hq := by
    by_cases h : q = p
    · subst h
      simpa using hborn
    · simpa [h] using hq
  dead q hq := by
    by_cases h : q = p
    · subst h
      simpa using hdead hq
    · simpa [h] using hq
  took _ _ := rfl
  scaled _ _ := rfl
  version := Nat.le_refl _
  fresh _ := rfl
  lease _ _ _ := rfl
  up _ _ hu := hu
  fenced _ _ _ _ := ⟨fun _ => rfl, fun _ => rfl⟩

theorem LeaseInv.of_life {w : World} {life : Life} (h : LeaseInv w) (hborn : life ≠ .unborn)
    (hlive : life = .live → w.scaled p ≠ some 0) :
    LeaseInv { w with life := Function.update w.life p life } := by
  refine ⟨fun hf => restored_iff.mpr fun path => restored_iff.mp (h.free hf) path,
    fun q hq => ⟨(h.held q hq).1, ?_⟩, fun q hl hs => ?_, fun q hl => ?_, fun q hl => ?_⟩
  all_goals by_cases he : q = p
  · subst he
    simpa using hborn
  · simpa [he] using (h.held q hq).2
  · subst he
    simp only [Function.update_self] at hl
    exact absurd hs (hlive hl)
  · simp only [Function.update_of_ne he] at hl
    exact h.owned q hl hs
  · subst he
    simp only [Function.update_self] at hl
    exact absurd hl hborn
  · simp only [Function.update_of_ne he] at hl
    exact h.unscaled q hl
  · subst he
    simp only [Function.update_self] at hl
    exact absurd hl hborn
  · simp only [Function.update_of_ne he] at hl
    exact h.untaken q hl

theorem environment (fenced : Bool) (setup : Setup) :
    (protocol fenced).Environment machine (allowed fenced) (program setup) fun _ _ _ => True where
  start p mode w w' hw h := by
    obtain ⟨hl, rfl⟩ := start_eq h
    refine ⟨LeaseInv.of_life hw nofun fun _ => hw.unscaled p hl, Guarantee.of_life nofun (by simp [hl]),
      verified_main.script (LeaseInv.of_life hw nofun fun _ => hw.unscaled p hl)
        ⟨⟨Function.update_self .., rfl, hw.unscaled p hl⟩, hw.untaken p hl⟩ fun _ _ _ => trivial⟩
  stop p w hw := ⟨LeaseInv.of_life hw nofun nofun, Guarantee.of_life nofun fun _ => rfl⟩
  env _ _ _ hw h _ := hw.unchanged (env_unchanged h)
  stable _ _ := .const

theorem Initial.leaseInv {w : World} (h : Initial w) : LeaseInv w :=
  ⟨fun _ => h.restored, fun q hq => by simp [h.free] at hq, fun q hl => by simp [h.unborn] at hl,
    fun q _ => by simp [h.unscaled], fun q _ => h.untaken q⟩

/-- Every pool of runs keeps to the protocol. -/
theorem reachable_sound {fenced : Bool} {setup : Setup} {w : World} {s : Runs} (h₀ : Initial w)
    (h : Reachable machine (program setup) (allowed fenced) w s) :
    (protocol fenced).Sound machine (allowed fenced) (fun _ _ _ => True) s :=
  Protocol.sound (environment fenced setup) h₀.leaseInv h

theorem allowed_false : allowed false = always := by
  funext w move
  cases move with
  | act q c choice => cases c <;> rfl
  | env e => rfl

end CartyxInfra.Backup
