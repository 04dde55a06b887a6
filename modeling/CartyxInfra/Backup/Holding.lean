/-
A run from its first call to its last: idle, holding the Lease, and giving it
back with the services restored.
-/
import CartyxInfra.Backup.Verified

namespace CartyxInfra.Backup

open JString

variable {fenced : Bool} {p : PodName} {α β : Type}

/-! ## Turning services on and off -/

section

variable {w : World} {on : Bool}

theorem LeaseInv.turn (path : Path) (hw : LeaseInv w) (h : on = true ∨ Owner w p) :
    LeaseInv (w.turn p path on) := by
  refine ⟨fun hf => ?_, fun q hq => ?_, fun q hl hs => ?_, fun q hl hs => ?_, fun q hl => ?_⟩
  · rw [turn_lease] at hf
    rcases h with rfl | ⟨ho, -⟩
    · rw [restored_iff]
      exact fun path' => turn_on (restored_iff.mp (hw.free hf) path')
    · rw [hf] at ho
      cases ho
  · rw [turn_lease] at hq ⊢
    rw [turn_life]
    exact hw.held q hq
  · rw [turn_life] at hl
    rw [turn_lease]
    by_cases hqp : q = p
    · subst hqp
      rcases turn_scaled_self hs with hs | hoff
      · exact hw.owned q hl hs
      · exact (h.resolve_left (by simp [hoff])).1
    · rw [turn_scaled_other hqp] at hs
      exact hw.owned q hl hs
  · rw [turn_life] at hl
    by_cases hqp : q = p
    · subst hqp
      rcases turn_scaled_self hs with hs | hoff
      · exact hw.unscaled q hl hs
      · have := (h.resolve_left (by simp [hoff])).2
        rw [hl] at this
        cases this
    · rw [turn_scaled_other hqp] at hs
      exact hw.unscaled q hl hs
  · rw [turn_life] at hl
    rw [turn_took]
    exact hw.untaken q hl

theorem turn_guarantee (path : Path) (h : on = true ∨ Owner w p)
    (hf : fenced = true → ∀ q, q ≠ p → ¬ Owner w q) :
    Guarantee fenced p w (w.turn p path on) where
  life _ _ := by rw [turn_life]
  born _ hq := by rwa [turn_life]
  dead _ hq := by rwa [turn_life]
  took _ _ := by rw [turn_took]
  scaled _ hq := turn_scaled_other hq
  version := by rw [turn_lease]
  fresh _ := turn_lease
  lease _ _ _ := turn_lease
  up ho path' hu := by
    obtain rfl := h.resolve_right ho
    exact turn_on hu
  fenced hfen q hq ho := absurd ho (hf hfen q hq)

/-- Who turns a service: the Lease's owner, or a run that has never taken it, on. -/
def MayTurn (w : World) (p : PodName) (on : Bool) : Prop := on = true ∧ w.took p = none ∨ Owner w p

theorem MayTurn.weaken (h : MayTurn w p on) : on = true ∨ Owner w p := h.imp_left And.left

theorem MayTurn.entitled (h : MayTurn w p on) : w.took p = none ∨ Owner w p := h.imp_left And.right

/-- No other live run holds the Lease when a write of a service lands in a fenced run:
an owner is the only one, and another run's write is fenced. -/
theorem MayTurn.unowned {c : Call} {choice : Choice} (h : MayTurn w p on)
    (hal : allowed fenced w (.act p c choice) = true)
    (hc : (∃ k n, c = .patchScale k n) ∨ ∃ r b, c = .patchSuspend r b) (hl : choice.lands = true) :
    fenced = true → ∀ q, q ≠ p → ¬ Owner w q := by
  intro hf q hq ho
  rcases h with ⟨-, htook⟩ | hown
  · have hother : w.ownedByOther p = true := ownedByOther_iff.mpr ⟨q, hq, ho⟩
    rcases hc with ⟨k, n, rfl⟩ | ⟨r, b, rfl⟩ <;> simp [allowed, hf, hl, htook, hother] at hal
  · exact hq (Option.some.inj (ho.1.symm.trans hown.1))

/-- Turning a service on is anyone's; turning it off is the holder's. -/
theorem Verified.turn {path : Path} {A B : Variables → World → Prop} (hA : Local fenced p A)
    (h : ∀ s w, A s w → MayTurn w p on ∧ B s (w.turn p path on)) :
    Verified fenced p A (turn path on) (fun _ => B) fun _ s w => A s w ∨ B s w := by
  have hentitled : ∀ s w, A s w → w.took p = none ∨ Owner w p := fun s w ha => (h s w ha).1.entitled
  cases path with
  | workload c =>
    refine Verified.write writes_patchScale nofun hA hentitled fun s w choice hw ha _ hl hal => ?_
    obtain ⟨hmay, hb⟩ := h s w ha
    exact ⟨hw.turn (.workload c) hmay.weaken,
      turn_guarantee (.workload c) hmay.weaken (hmay.unowned hal (.inl ⟨_, _, rfl⟩) hl), hb⟩
  | release r =>
    refine Verified.write writes_patchSuspend nofun hA hentitled fun s w choice hw ha _ hl hal => ?_
    obtain ⟨hmay, hb⟩ := h s w ha
    exact ⟨hw.turn (.release r) hmay.weaken,
      turn_guarantee (.release r) hmay.weaken (hmay.unowned hal (.inr ⟨_, _, rfl⟩) hl), hb⟩

end

/-! ## `resume` -/

/-- What `resume` has restored so far, as long as `K` holds. -/
def Mended (p : PodName) (A : Variables → World → Prop) (K : World → Prop) (done : List Path)
    (s : Variables) (w : World) : Prop :=
  A s w ∧ (done ≠ [] → w.scaled p = some 1) ∧ (K w → ∀ path ∈ done, Up w path)

theorem Verified.mend {A : Variables → World → Prop} {K : World → Prop} {done : List Path} (path : Path)
    (hlocal : ∀ done, Local fenced p (Mended p A K done)) (hmay : ∀ s w, A s w → MayTurn w p true)
    (hA : ∀ s w path, A s w → A s (w.turn p path true))
    (hK : ∀ w path, K (w.turn p path true) → K w) (hd : done = [] → ∃ c, path = .workload c) :
    Verified fenced p (Mended p A K done) (Backup.turn path true) (fun _ => Mended p A K (path :: done))
      fun _ => A := by
  refine Triple.conseq (Verified.turn (B := Mended p A K (path :: done)) (hlocal done) ?_) (fun _ _ _ h => h)
    (fun _ _ _ h => h) fun _ s w h => h.elim And.left And.left
  rintro s w ⟨ha, hs, hup⟩
  refine ⟨hmay s w ha, hA s w path ha, fun _ => ?_, fun hk => ?_⟩
  · cases path with
    | workload c => simp [World.turn, World.patchScale]
    | release r =>
      refine hs fun hnil => ?_
      obtain ⟨c, hc⟩ := hd hnil
      cases hc
  · simp only [List.forall_mem_cons]
    exact ⟨turn_up w p path, fun path' hp => turn_on (hup (hK w path hk) path' hp)⟩

/-- `resume` restores the services, for whoever may. -/
theorem verified_resume {A : Variables → World → Prop} {K : World → Prop}
    (hlocal : ∀ done, Local fenced p (Mended p A K done)) (hmay : ∀ s w, A s w → MayTurn w p true)
    (hA : ∀ s w path, A s w → A s (w.turn p path true))
    (hK : ∀ w path, K (w.turn p path true) → K w) :
    Verified fenced p A (resume original)
      (fun _ s w => A s w ∧ w.scaled p = some 1 ∧ (K w → Restored w)) fun _ => A := by
  have hstart : ∀ s w, A s w → Mended p A K [] s w := fun s w ha => ⟨ha, by simp, by simp⟩
  refine Triple.conseq (B := Mended p A K [])
    (R := fun _ => Mended p A K [.release .flux, .release .helm, .workload .janusgraph, .workload .cassandra])
    (F := fun _ => A) ?_ (fun s w _ => hstart s w) ?_ fun _ _ _ h => h
  · refine Triple.bind (Verified.mend (.workload .cassandra) hlocal hmay hA hK fun _ => ⟨_, rfl⟩) fun _ => ?_
    refine Triple.bind (Verified.mend (.workload .janusgraph) hlocal hmay hA hK nofun) fun _ => ?_
    refine Triple.bind (Triple.conseq
      (Verified.reads (makes_waitUntil (by decide) (makes_recovered (by decide)) _ _) (hlocal _))
      (fun _ _ _ h => h) (fun _ _ _ h => h) fun _ _ _ h => h.1) fun _ => ?_
    refine Triple.bind (Verified.mend (.release .helm) hlocal hmay hA hK nofun) fun _ => ?_
    exact Verified.mend (.release .flux) hlocal hmay hA hK nofun
  · rintro _ s w ⟨ha, hs, hup⟩
    refine ⟨ha, hs (by simp), fun hk => restored_iff.mpr fun path => hup hk path ?_⟩
    match path with
    | .workload .janusgraph | .workload .cassandra | .release .helm | .release .flux => simp

/-! ## Where a run is -/

/-- A run that does not hold the Lease, or does not know that it does. -/
structure Unlocked (p : PodName) (s : Variables) (w : World) : Prop where
  alive : w.life p = .live
  unlocked : s.locked = false
  unscaled : w.scaled p ≠ some 0

/-- A run that has never taken the Lease. -/
structure Idle (p : PodName) (s : Variables) (w : World) : Prop extends Unlocked p s w where
  untaken : w.took p = none

/-- A run that has taken the Lease. -/
structure Holding (p : PodName) (s : Variables) (w : World) : Prop where
  owner : Owner w p
  locked : s.locked = true
  original : s.original = some Backup.original

/-- The services are up, and the run has not left one of them off. -/
def Settled (p : PodName) (w : World) : Prop := (∀ path, Up w path) ∧ w.scaled p ≠ some 0

/-- What the `catch` and the `finally` clause find. -/
def Consistent (p : PodName) (s : Variables) (w : World) : Prop :=
  Unlocked p s w ∨ Holding p s w ∧ (s.needsRecovery = false → Settled p w)

theorem Idle.consistent {s : Variables} {w : World} (h : Idle p s w) : Consistent p s w := .inl h.toUnlocked

/-- A holder's run that has turned some services off, and finds them so if the run is fenced. -/
def Busy (fenced : Bool) (p : PodName) (off : List Path) (s : Variables) (w : World) : Prop :=
  Holding p s w ∧ s.needsRecovery = true ∧ (fenced = true → ∀ path ∈ off, Down w path)

theorem Foreign.owner {w w' : World} (h : Foreign fenced p w w') (ho : Owner w p) : Owner w' p :=
  ⟨by rw [h.lease ho]; exact ho.1, by rw [h.life]; exact ho.2⟩

theorem unlocked_local : Local fenced p (Unlocked p) :=
  fun _ _ _ hf h => ⟨by rw [hf.life]; exact h.alive, h.unlocked, by rw [hf.scaled]; exact h.unscaled⟩

theorem idle_local : Local fenced p (Idle p) :=
  fun s w w' hf h => ⟨unlocked_local s w w' hf h.toUnlocked, by rw [hf.took]; exact h.untaken⟩

theorem holding_local : Local fenced p (Holding p) :=
  fun _ _ _ hf h => ⟨hf.owner h.owner, h.locked, h.original⟩

theorem settled_local : Local fenced p fun s w => Holding p s w ∧ Settled p w :=
  fun s w w' hf ⟨hh, hu, hs⟩ => ⟨holding_local s w w' hf hh,
    fun path => hf.up p hh.owner.1 (.inl rfl) path (hu path), by rw [hf.scaled]; exact hs⟩

theorem busy_local {off : List Path} : Local fenced p (Busy fenced p off) :=
  fun s w w' hf ⟨h, hn, hd⟩ => ⟨holding_local s w w' hf h, hn,
    fun hfen path hp => ((hf.fenced hfen h.owner).down path).mpr (hd hfen path hp)⟩

theorem Busy.consistent {off : List Path} {s : Variables} {w : World} (h : Busy fenced p off s w) :
    Consistent p s w :=
  .inr ⟨h.1, fun hn => absurd h.2.1 (by simp [hn])⟩

theorem consistent_of_settled {s : Variables} {w : World} (h : Holding p s w ∧ Settled p w) :
    Consistent p s w := .inr ⟨h.1, fun _ => h.2⟩

/-! ## Services down and up again -/

theorem Verified.off (path : Path) {off : List Path} :
    Verified fenced p (Busy fenced p off) (Backup.turn path false) (fun _ => Busy fenced p (path :: off))
      fun _ => Consistent p := by
  refine Triple.conseq (Verified.turn (B := Busy fenced p (path :: off)) busy_local ?_) (fun _ _ _ h => h)
    (fun _ _ _ h => h) fun _ s w h => h.elim Busy.consistent Busy.consistent
  rintro s w ⟨hh, hn, hd⟩
  refine ⟨.inr hh.owner, ⟨⟨?_, ?_⟩, hh.locked, hh.original⟩, hn, fun hf => ?_⟩
  · rw [turn_lease]
    exact hh.owner.1
  · rw [turn_life]
    exact hh.owner.2
  · simp only [List.forall_mem_cons]
    exact ⟨turn_down w p path, fun path' hp => turn_off (hd hf path' hp)⟩

theorem Verified.busy {m : Js α} (hm : Quiet m) {off : List Path} :
    Verified fenced p (Busy fenced p off) m (fun _ => Busy fenced p off) fun _ => Consistent p :=
  Triple.conseq (Quiet.verified hm busy_local fun _ _ h => h.1.owner) (fun _ _ _ h => h) (fun _ _ _ h => h)
    fun _ _ _ h => h.consistent

theorem Verified.settled {m : Js α} (hm : Quiet m) :
    Verified fenced p (fun s w => Holding p s w ∧ Settled p w) m (fun _ s w => Holding p s w ∧ Settled p w)
      fun _ => Consistent p :=
  Triple.conseq (Quiet.verified hm settled_local fun _ _ h => h.1.owner) (fun _ _ _ h => h) (fun _ _ _ h => h)
    fun _ _ _ h => consistent_of_settled h

theorem verified_suspend :
    Verified fenced p (Busy fenced p []) suspend
      (fun _ => Busy fenced p [.release .helm, .release .flux]) fun _ => Consistent p := by
  have idle : ∀ r, Quiet (do return !(← getRelease r).is .reconciling : Js Bool) :=
    fun r => (makes_getRelease (by decide)).bind fun _ => .pure _
  refine Triple.bind (Verified.off (.release .flux)) fun _ => ?_
  refine Triple.bind (Verified.busy (makes_waitUntil (by decide) (idle .flux) _ _)) fun _ => ?_
  refine Triple.bind (Verified.off (.release .helm)) fun _ => ?_
  refine Triple.bind (Verified.busy (makes_waitUntil (by decide) (idle .helm) _ _)) fun _ => ?_
  exact Verified.busy ((makes_readAll (by decide) (by decide)).bind fun _ =>
    (makes_checkpoint (by decide)).bind fun _ => .pure _)

theorem verified_scaleDown {c : Component} {label : JString} {off : List Path} :
    Verified fenced p (Busy fenced p off) (scaleDown c label)
      (fun _ => Busy fenced p (.workload c :: off)) fun _ => Consistent p := by
  refine Triple.bind (Verified.off (.workload c)) fun _ => ?_
  exact Verified.busy ((makes_waitUntil (by decide) (makes_gone (by decide)) _ _).bind fun _ =>
    makes_checkpoint (by decide))

/-- Every service, in the order a backup turns them off. -/
def every : List Path :=
  [.workload .cassandra, .workload .janusgraph, .release .helm, .release .flux]

theorem mem_every (path : Path) : path ∈ every := by
  match path with
  | .workload .janusgraph | .workload .cassandra | .release .helm | .release .flux => simp [every]

theorem stopped_of_every {w : World} (h : ∀ path ∈ every, Down w path) : Stopped w :=
  ⟨h (.workload .janusgraph) (by simp [every]), h (.workload .cassandra) (by simp [every]),
    h (.release .helm) (by simp [every]), h (.release .flux) (by simp [every])⟩

/-- While `tar` runs, the services are off. -/
theorem verified_exitTar :
    Verified fenced p (Busy fenced p every) exitTar (fun _ => Busy fenced p every) fun _ => Consistent p := by
  refine Triple.bind (Triple.make (Q := fun _ => Busy fenced p every) (fun s => busy_local.stable s) ?_)
    fun r => Verified.busy (.await r)
  refine fun s w hw hb => ⟨⟨fun _ hf => stopped_of_every (hb.2.2 hf), trivial⟩, fun choice r w' hr _ => ?_⟩
  have hu := perform_unchanged (p := p) (c := .exitTar) rfl hr
  exact ⟨hw.unchanged hu, hu.guarantee, busy_local s w w' hu.foreign hb⟩

theorem verified_archive {setup : Setup} {read : Snapshot} :
    Verified fenced p (Busy fenced p every) (archive setup p read) (fun _ => Busy fenced p every)
      fun _ => Consistent p := by
  refine Triple.bind (Verified.busy (makes_patchStatus (by decide))) fun _ => ?_
  refine Triple.bind (Verified.busy (makes_files (by decide))) fun _ => ?_
  refine Triple.bind (Verified.busy (makes_call (by decide) .await)) fun config => ?_
  refine Triple.bind (Verified.busy (makes_manifest (by decide))) fun manifest => ?_
  refine Triple.bind (Verified.busy (makes_files (by decide))) fun _ => ?_
  refine Triple.bind (Verified.busy (makes_startTar (by decide))) fun _ => ?_
  refine Triple.bind verified_exitTar fun content => ?_
  exact Verified.busy ((makes_checkpoint (by decide)).bind fun _ => .pure _)

/-- A holder that still owes the services' recovery. -/
def Owing (p : PodName) (s : Variables) (w : World) : Prop := Holding p s w ∧ s.needsRecovery = true

theorem Owing.consistent {s : Variables} {w : World} (h : Owing p s w) : Consistent p s w :=
  .inr ⟨h.1, fun hn => absurd h.2 (by simp [hn])⟩

theorem owing_mended (done : List Path) : Local fenced p (Mended p (Owing p) (fun _ => True) done) :=
  fun s w w' hf ⟨hh, hs, hup⟩ => ⟨⟨holding_local s w w' hf hh.1, hh.2⟩,
    fun hd => by rw [hf.scaled]; exact hs hd,
    fun _ path hp => hf.up p hh.1.owner.1 (.inl rfl) path (hup trivial path hp)⟩

theorem owing_turn {s : Variables} {w : World} {path : Path} (h : Owing p s w) :
    Owing p s (w.turn p path true) :=
  ⟨⟨⟨by rw [turn_lease]; exact h.1.owner.1, by rw [turn_life]; exact h.1.owner.2⟩, h.1.locked,
    h.1.original⟩, h.2⟩

theorem verified_resumeOriginal :
    Verified fenced p (Owing p) resumeOriginal (fun _ s w => Holding p s w ∧ Settled p w)
      fun _ => Owing p := by
  refine Triple.read fun vars => ?_
  refine Triple.extract (c := vars.original = some original)
    (fun s w ⟨hv, h⟩ => hv ▸ h.1.original) fun ho => ?_
  rw [ho]
  refine Triple.conseq
    (verified_resume owing_mended (fun _ _ h => .inr h.1.owner) (fun _ _ _ => owing_turn) fun _ _ _ => trivial)
    (fun _ _ _ h => h.2) ?_ fun _ _ _ h => h
  rintro _ s w ⟨h, hs, hr⟩
  exact ⟨h.1, restored_iff.mp (hr trivial), by simp [hs]⟩

end CartyxInfra.Backup
