/-
Every run keeps to the protocol of the Lease.

A run is idle until it holds the Lease, and then holds it to its last call.
Most of a run is quiet: it writes nothing the protocol speaks of, and keeps
every local assertion. What is left are the writes: taking and giving back the
Lease, taking the services down as its holder, and `resume`.
-/
import CartyxInfra.Backup.Calls
import CartyxInfra.Backup.Protocol

namespace CartyxInfra.Backup

open JString

variable {fenced : Bool} {p : PodName} {α β : Type}

/-- A program that keeps to the protocol, with what it needs and leaves. -/
abbrev Verified (fenced : Bool) (p : PodName) (A : Variables → World → Prop) (m : Js α)
    (Q : α → Variables → World → Prop) (E : Stop → Variables → World → Prop) : Prop :=
  Triple (protocol fenced) machine (allowed fenced) p A m Q E

/-! ## Quiet programs -/

/-- The kinds of calls that neither write what the protocol speaks of nor wait for `tar`. -/
def quietKinds : List Kind := [.read, .observe, .status, .startTar, .put, .delete]

theorem quiet_of_kind {c : Call} (h : c.kind ∈ quietKinds) : c.quiet = true ∧ c ≠ .exitTar := by
  cases c <;> simp_all [Call.kind, Call.quiet, quietKinds]

/-- A program of such calls, each by a run that may make it, keeps every local assertion. -/
theorem Verified.calls {kinds : List Kind} {m : Js α} (hm : Makes kinds true m)
    {A : Variables → World → Prop} (hA : Local fenced p A)
    (h : ∀ c s w, c.kind ∈ kinds → A s w → c.kind ∈ quietKinds ∧ Entitled w p c) :
    Verified fenced p A m (fun _ => A) fun _ => A := by
  refine Triple.calls hm hA.stable nofun fun c s w hc hw ha => ?_
  obtain ⟨hkind, hentitled⟩ := h c s w hc ha
  obtain ⟨hq, ht⟩ := quiet_of_kind hkind
  refine ⟨⟨fun h => absurd h ht, hentitled⟩, fun choice r w' hr _ => ?_⟩
  have hu := perform_unchanged hq hr
  exact ⟨hw.unchanged hu, hu.guarantee, hA s w w' hu.foreign ha⟩

/-- The kinds of calls that anyone may make. -/
def readKinds : List Kind := [.read, .observe, .startTar]

theorem Verified.reads {m : Js α} (hm : Makes readKinds true m) {A : Variables → World → Prop}
    (hA : Local fenced p A) : Verified fenced p A m (fun _ => A) fun _ => A :=
  Verified.calls hm hA fun c _ _ hc _ => by cases c <;> simp_all [Call.kind, readKinds, quietKinds, Entitled]

/-- The calls of a holder that leave the Lease and the services alone. -/
abbrev Quiet (m : Js α) : Prop := Makes quietKinds true m

theorem Quiet.verified {m : Js α} (hm : Quiet m) {A : Variables → World → Prop} (hA : Local fenced p A)
    (h : ∀ s w, A s w → Owner w p) : Verified fenced p A m (fun _ => A) fun _ => A :=
  Verified.calls hm hA fun c s w hc ha => by
    have howner := h s w ha
    refine ⟨hc, ?_⟩
    cases c <;> simp [Entitled, howner]

/-! ## Writes -/

/-- A write that keeps to the protocol. -/
theorem Verified.write {c : Call} {next : c.Ret → Js Unit} {A B : Variables → World → Prop}
    (hc : Writes c next) (ht : c ≠ .exitTar) (hA : Local fenced p A) (he : ∀ s w, A s w → Entitled w p c)
    (h : ∀ s w choice, LeaseInv w → A s w → c.fits w → choice.lands = true →
      allowed fenced w (.act p c choice) = true →
      LeaseInv (effect p c choice w) ∧ Guarantee fenced p w (effect p c choice w) ∧
        B s (effect p c choice w)) :
    Verified fenced p A (Program.make c >>= next) (fun _ => B) fun _ s w => A s w ∨ B s w :=
  triple_write hc hA.stable (fun s w _ ha => ⟨fun hc => absurd hc ht, he s w ha⟩)
    (fun w _ => (Unchanged.refl w).guarantee) h

/-- The write that turns a service on or off. -/
def turn : Path → Bool → Js Unit
  | .workload c, on => patchScale c (if on then 1 else 0)
  | .release r, on => patchSuspend r (!on)

/-- What that write leaves. -/
def World.turn (w : World) (p : PodName) : Path → Bool → World
  | .workload c, on => w.patchScale p c (if on then 1 else 0)
  | .release r, on => w.patchSuspend r (!on)

section

variable {w w' : World} {path path' : Path} {on : Bool}

@[simp] theorem turn_lease : (w.turn p path on).lease = w.lease := by cases path <;> rfl

@[simp] theorem turn_life : (w.turn p path on).life = w.life := by cases path <;> rfl

@[simp] theorem turn_took : (w.turn p path on).took = w.took := by cases path <;> rfl

theorem turn_up (w : World) (p : PodName) (path : Path) : Up (w.turn p path true) path := by
  cases path <;> simp [Up, World.turn, World.patchScale, World.patchSuspend, World.setWorkload,
    World.setRelease]

theorem turn_down (w : World) (p : PodName) (path : Path) : Down (w.turn p path false) path := by
  cases path <;> simp [Down, World.turn, World.patchScale, World.patchSuspend, World.setWorkload,
    World.setRelease]

theorem turn_other (h : path' ≠ path) :
    (Up (w.turn p path on) path' ↔ Up w path') ∧ (Down (w.turn p path on) path' ↔ Down w path') := by
  cases path with
  | workload c =>
    cases path' with
    | workload c' =>
      have hc : c' ≠ c := fun he => h (by rw [he])
      simp [Up, Down, World.turn, World.patchScale, World.setWorkload, hc]
    | release r' => exact ⟨.rfl, .rfl⟩
  | release r =>
    cases path' with
    | workload c' => exact ⟨.rfl, .rfl⟩
    | release r' =>
      have hr : r' ≠ r := fun he => h (by rw [he])
      simp [Up, Down, World.turn, World.patchSuspend, World.setRelease, hr]

theorem turn_on (h : Up w path') : Up (w.turn p path true) path' := by
  by_cases he : path' = path
  · subst he
    exact turn_up w p path'
  · exact (turn_other he).1.mpr h

theorem turn_off (h : Down w path') : Down (w.turn p path false) path' := by
  by_cases he : path' = path
  · subst he
    exact turn_down w p path'
  · exact (turn_other he).2.mpr h

theorem turn_scaled_self (h : (w.turn p path on).scaled p = some 0) : w.scaled p = some 0 ∨ on = false := by
  cases path with
  | workload c => cases on <;> simp_all [World.turn, World.patchScale]
  | release r => exact .inl h

theorem turn_scaled_other {q : PodName} (h : q ≠ p) : (w.turn p path on).scaled q = w.scaled q := by
  cases path with
  | workload c => simp [World.turn, World.patchScale, h]
  | release r => rfl

end

end CartyxInfra.Backup
