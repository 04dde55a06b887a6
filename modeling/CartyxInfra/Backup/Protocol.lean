/-
What backup runs keep to between them.

The Lease is the protocol's: while it is free the services are restored, and
while it is held its annotation says what to restore. A run takes a service
down only as the Lease's live holder, and touches the Lease only while it is
free, its own, or held by a run that has ended. A run that has taken the Lease
writes only as its owner. A `recover` run never takes it; with `fenced`, the
runs looked at are those in which none of its scale or suspend writes lands
while a live run holds the Lease; a holder then finds the services as it left
them.
-/
import CartyxInfra.Lib.RelyGuarantee
import CartyxInfra.Backup.Cluster

namespace CartyxInfra.Backup

open JString

/-! ## Services -/

/-- A service is on: one replica, or not suspended. -/
def Up (w : World) : Path → Prop
  | .workload c => (w.workload c).replicas = 1
  | .release r => (w.release r).suspend = false

/-- A service is off: no replica wanted, or suspended. -/
def Down (w : World) : Path → Prop
  | .workload c => (w.workload c).replicas = 0
  | .release r => (w.release r).suspend = true

/-- The services are off. -/
structure Stopped (w : World) : Prop where
  graph : (w.workload .janusgraph).replicas = 0
  cassandra : (w.workload .cassandra).replicas = 0
  helm : (w.release .helm).suspend = true
  flux : (w.release .flux).suspend = true

theorem restored_iff {w : World} : Restored w ↔ ∀ path, Up w path := by
  constructor
  · rintro ⟨hg, hc, hh, hf⟩ path
    match path with
    | .workload .janusgraph => exact hg
    | .workload .cassandra => exact hc
    | .release .helm => exact hh
    | .release .flux => exact hf
  · intro h
    exact ⟨h (.workload .janusgraph), h (.workload .cassandra), h (.release .helm), h (.release .flux)⟩

/-- The services' wanted state is the same. -/
structure SameServices (w w' : World) : Prop where
  replicas : ∀ c, (w'.workload c).replicas = (w.workload c).replicas
  suspend : ∀ r, (w'.release r).suspend = (w.release r).suspend

theorem SameServices.up {w w' : World} (h : SameServices w w') (path : Path) : Up w' path ↔ Up w path := by
  cases path with
  | workload c => simp [Up, h.replicas]
  | release r => simp [Up, h.suspend]

theorem SameServices.down {w w' : World} (h : SameServices w w') (path : Path) :
    Down w' path ↔ Down w path := by
  cases path with
  | workload c => simp [Down, h.replicas]
  | release r => simp [Down, h.suspend]

/-! ## Steps that leave the protocol's objects alone -/

/-- Nothing of what the protocol speaks of has changed. -/
structure Unchanged (w w' : World) : Prop where
  lease : w'.lease = w.lease
  life : w'.life = w.life
  took : w'.took = w.took
  scaled : w'.scaled = w.scaled
  services : SameServices w w'

theorem Unchanged.refl (w : World) : Unchanged w w := ⟨rfl, rfl, rfl, rfl, fun _ => rfl, fun _ => rfl⟩

/-- A call that writes none of these objects. -/
def Call.quiet : Call → Bool
  | .patchLease _ | .patchScale .. | .patchSuspend .. => false
  | _ => true

theorem perform_unchanged {p : PodName} {c : Call} {choice : Choice} {w w' : World} {r : c.Ret}
    (hc : c.quiet = true) (h : perform p c choice w = some (r, w')) : Unchanged w w' := by
  rcases perform_cases h with rfl | rfl
  · exact .refl w'
  · cases c with
    | patchLease | patchScale | patchSuspend => cases hc
    | _ => exact ⟨rfl, rfl, rfl, rfl, fun _ => rfl, fun _ => rfl⟩

theorem perform_life {p : PodName} {c : Call} {choice : Choice} {w w' : World} {r : c.Ret}
    (h : perform p c choice w = some (r, w')) : w'.life = w.life := by
  rcases perform_cases h with rfl | rfl
  · rfl
  · cases c <;> rfl

theorem sameServices_setWorkload {w : World} {c : Component} {workload : Workload}
    (h : workload.replicas = (w.workload c).replicas) : SameServices w (w.setWorkload c workload) := by
  refine ⟨fun c' => ?_, fun _ => rfl⟩
  by_cases hc : c' = c
  · subst hc
    simpa [World.setWorkload] using h
  · simp [World.setWorkload, hc]

theorem sameServices_setRelease {w : World} {r : Reconciler} {release : Release}
    (h : release.suspend = (w.release r).suspend) : SameServices w (w.setRelease r release) := by
  refine ⟨fun _ => rfl, fun r' => ?_⟩
  by_cases hr : r' = r
  · subst hr
    simpa [World.setRelease] using h
  · simp [World.setRelease, hr]

/-- The world's own moves leave the protocol's objects alone. -/
theorem env_unchanged {e : Env} {w w' : World} (h : env e w = some w') : Unchanged w w' := by
  cases e with
  | tick | cancel | podCount =>
    cases h
    exact ⟨rfl, rfl, rfl, rfl, fun _ => rfl, fun _ => rfl⟩
  | report =>
    cases h
    exact ⟨rfl, rfl, rfl, rfl, sameServices_setWorkload rfl⟩
  | begin | finish =>
    simp only [env] at h
    split at h
    · cases h
      exact ⟨rfl, rfl, rfl, rfl, sameServices_setRelease rfl⟩
    · cases h
  | upgrade =>
    simp only [env] at h
    split at h
    · cases h
      exact ⟨rfl, rfl, rfl, rfl, sameServices_setWorkload rfl⟩
    · cases h

/-! ## The protocol -/

/-- The Lease and the services at any time. -/
structure LeaseInv (w : World) : Prop where
  free : w.lease.holderIdentity = none → Restored w
  held : ∀ h, w.lease.holderIdentity = some h → w.lease.original = some original ∧ w.life h ≠ .unborn
  /-- A run between its scale-down and its recovery holds the Lease. -/
  owned : ∀ p, w.life p = .live → w.scaled p = some 0 → w.lease.holderIdentity = some p
  unscaled : ∀ p, w.life p = .unborn → w.scaled p ≠ some 0
  untaken : ∀ p, w.life p = .unborn → w.took p = none

/-- The Lease's live holder. -/
def Owner (w : World) (p : PodName) : Prop := w.lease.holderIdentity = some p ∧ w.life p = .live

/-- What a run's step may change. -/
structure Guarantee (fenced : Bool) (q : PodName) (w w' : World) : Prop where
  life : ∀ p, p ≠ q → w'.life p = w.life p
  born : ∀ p, w.life p ≠ .unborn → w'.life p ≠ .unborn
  dead : ∀ p, w.life p = .dead → w'.life p = .dead
  took : ∀ p, p ≠ q → w'.took p = w.took p
  scaled : ∀ p, p ≠ q → w'.scaled p = w.scaled p
  version : w.lease.resourceVersion ≤ w'.lease.resourceVersion
  fresh : w'.lease.resourceVersion = w.lease.resourceVersion → w'.lease = w.lease
  lease : ∀ p, p ≠ q → Owner w p → w'.lease = w.lease
  up : ¬ Owner w q → ∀ path, Up w path → Up w' path
  fenced : fenced = true → ∀ p, p ≠ q → Owner w p → SameServices w w'

/-- Whether a run other than the process is the Lease's live holder. -/
def World.ownedByOther (w : World) (q : PodName) : Bool :=
  match w.lease.holderIdentity with
  | some p => p != q && w.life p == .live
  | none => false

/-- The runs looked at: all, or those in which no scale or suspend write of a
run that has not taken the Lease lands while another live run holds it. -/
def allowed (fenced : Bool) (w : World) : Move PodName Call Choice Env → Bool
  | .act q (.patchScale ..) choice | .act q (.patchSuspend ..) choice =>
    !(fenced && choice.lands && (w.took q).isNone && w.ownedByOther q)
  | _ => true

/-- Who makes a write: a run that has taken the Lease as its owner, a `recover`
run before it takes any. -/
def Entitled (w : World) (p : PodName) : Call → Prop
  | .putObject .. | .deleteObject _ => Owner w p
  | .patchScale .. | .patchSuspend .. => w.took p = none ∨ Owner w p
  | .patchStatus data => w.took p = none ∧ data.Brief ∨ Owner w p
  | _ => True

/-- What backup and recover runs keep to; `fenced`: recover runs too write only with the Lease. -/
def protocol (fenced : Bool) : Protocol PodName Call World where
  inv := LeaseInv
  guarantee := Guarantee fenced
  pending p c w := (c = .exitTar → fenced = true → Stopped w) ∧ Entitled w p c

theorem ownedByOther_iff {w : World} {q : PodName} : w.ownedByOther q = true ↔ ∃ p, p ≠ q ∧ Owner w p := by
  unfold World.ownedByOther
  split
  · next p hp => simp [Owner, hp]
  · next hp => simp [Owner, hp]

theorem LeaseInv.unchanged {w w' : World} (h : LeaseInv w) (hu : Unchanged w w') : LeaseInv w' := by
  refine ⟨fun hf => ?_, fun p hp => ?_, fun p hl hs => ?_, fun p hl => ?_, fun p hl => ?_⟩
  · rw [hu.lease] at hf
    rw [restored_iff]
    exact fun path => (hu.services.up path).mpr (restored_iff.mp (h.free hf) path)
  · rw [hu.lease] at hp ⊢
    rw [hu.life]
    exact h.held p hp
  · rw [hu.life] at hl
    rw [hu.scaled] at hs
    rw [hu.lease]
    exact h.owned p hl hs
  · rw [hu.life] at hl
    rw [hu.scaled]
    exact h.unscaled p hl
  · rw [hu.life] at hl
    rw [hu.took]
    exact h.untaken p hl

theorem Unchanged.guarantee {fenced : Bool} {q : PodName} {w w' : World} (h : Unchanged w w') :
    Guarantee fenced q w w' where
  life p _ := by rw [h.life]
  born p hp := by rwa [h.life]
  dead p hp := by rwa [h.life]
  took p _ := by rw [h.took]
  scaled p _ := by rw [h.scaled]
  version := by rw [h.lease]
  fresh _ := h.lease
  lease _ _ _ := h.lease
  up _ path hp := (h.services.up path).mpr hp
  fenced _ _ _ _ := h.services

/-! ## What others leave -/

/-- What a step of the others can do to what a run knows. -/
structure Foreign (fenced : Bool) (p : PodName) (w w' : World) : Prop where
  life : w'.life p = w.life p
  born : ∀ h, w.life h ≠ .unborn → w'.life h ≠ .unborn
  dead : ∀ h, w.life h = .dead → w'.life h = .dead
  took : w'.took p = w.took p
  scaled : w'.scaled p = w.scaled p
  version : w.lease.resourceVersion ≤ w'.lease.resourceVersion
  fresh : w'.lease.resourceVersion = w.lease.resourceVersion → w'.lease = w.lease
  lease : Owner w p → w'.lease = w.lease
  up : ∀ h, w.lease.holderIdentity = some h → h = p ∨ w.life h = .dead → ∀ path, Up w path → Up w' path
  fenced : fenced = true → Owner w p → SameServices w w'

theorem Guarantee.foreign {fenced : Bool} {p q : PodName} {w w' : World} (h : Guarantee fenced q w w')
    (hpq : q ≠ p) : Foreign fenced p w w' where
  life := h.life p (Ne.symm hpq)
  born := h.born
  dead := h.dead
  took := h.took p (Ne.symm hpq)
  scaled := h.scaled p (Ne.symm hpq)
  version := h.version
  fresh := h.fresh
  lease := h.lease p (Ne.symm hpq)
  up holder hh hor := by
    refine h.up fun ⟨hq, hl⟩ => ?_
    obtain rfl : holder = q := by simpa [hh] using hq
    rcases hor with rfl | hd
    · exact hpq rfl
    · rw [hl] at hd
      cases hd
  fenced hf := h.fenced hf p (Ne.symm hpq)

theorem Unchanged.foreign {fenced : Bool} {p : PodName} {w w' : World} (h : Unchanged w w') :
    Foreign fenced p w w' where
  life := by rw [h.life]
  born holder hh := by rwa [h.life]
  dead holder hh := by rwa [h.life]
  took := by rw [h.took]
  scaled := by rw [h.scaled]
  version := by rw [h.lease]
  fresh _ := h.lease
  lease _ := h.lease
  up _ _ _ path hp := (h.services.up path).mpr hp
  fenced _ _ := h.services

/-- An assertion about a run's own variables and the world that the others
leave, and with them every step that leaves the protocol's objects alone. -/
def Local (fenced : Bool) (p : PodName) (A : Variables → World → Prop) : Prop :=
  ∀ s w w', Foreign fenced p w w' → A s w → A s w'

theorem Local.stable {fenced : Bool} {p : PodName} {A : Variables → World → Prop} (h : Local fenced p A)
    (s : Variables) : (protocol fenced).Stable machine (allowed fenced) p (A s) := by
  rintro w w' ⟨-, -, ⟨q, hq, hg⟩ | ⟨e, he, -⟩⟩ ha
  · exact h s w w' (hg.foreign hq) ha
  · exact h s w w' (env_unchanged he).foreign ha

theorem Local.and {fenced : Bool} {p : PodName} {A B : Variables → World → Prop} (hA : Local fenced p A)
    (hB : Local fenced p B) : Local fenced p fun s w => A s w ∧ B s w :=
  fun s w w' hf h => ⟨hA s w w' hf h.1, hB s w w' hf h.2⟩

theorem Local.const {fenced : Bool} {p : PodName} {A : Variables → Prop} : Local fenced p fun s _ => A s :=
  fun _ _ _ _ h => h

end CartyxInfra.Backup
