/-
Whether a run's `tar` reads a stopped data directory.

A backup writes only as the owner of the Lease (`writes_entitled`), but a
`recover` run checks the Lease once and then writes scale and suspend without
it. In the runs in which no such write lands while a live run holds the Lease,
the services are off for as long as `tar` reads, and nothing another run does
turns one on before the holder's own recovery. Without that a late `recover`
run starts the database under `tar`.
-/
import CartyxInfra.Backup.Lease

namespace CartyxInfra.Backup

open JString

/-- A run that has taken the Lease makes every write as its live holder, and no
run that has not writes to the bucket. -/
theorem writes_entitled {setup : Setup} {w : World} {s : Runs} {p : PodName} {c : Call}
    {next : c.Ret → Script Call Call.Ret (Except Stop Unit × Variables)} (h₀ : Initial w)
    (h : Reachable machine (program setup) always w s) (hp : s.procs p = some (.call c next)) :
    Entitled s.world p c :=
  ((reachable_sound h₀ (allowed_false ▸ h)).pending hp).2

/-- **Exclusion.** In a fenced run, `tar` reads with the services off, and
between a live run's scale-down and its own recovery no call of another run
changes what is wanted of the services. -/
theorem tar_excludes {setup : Setup} {w : World} {s : Runs} (h₀ : Initial w)
    (h : Reachable machine (program setup) (allowed true) w s) :
    (∀ p next, s.procs p = some (.call .exitTar next) → Stopped s.world) ∧
    ∀ p, s.world.life p = .live → s.world.scaled p = some 0 →
      ∀ q c next choice r w', q ≠ p → s.procs q = some (.call c next) →
        perform q c choice s.world = some (r, w') → allowed true s.world (.act q c choice) = true →
          SameServices s.world w' := by
  have hs := reachable_sound h₀ h
  refine ⟨fun p next hp => (hs.pending hp).1 rfl rfl, fun p hl hd q c next choice r w' hq hp hr hal => ?_⟩
  have hinv : LeaseInv s.world := hs.inv
  obtain ⟨-, hg, -⟩ := hs.performs hp hr hal
  exact hg.fenced rfl p (Ne.symm hq) ⟨hinv.owned p hl hd, hl⟩

/-- A run waits for its `tar`. -/
def Call.isExitTar : Call → Bool
  | .exitTar => true
  | _ => false

/-- A process that waits for `tar`. -/
theorem waitsForTar_iff {proc : Option (Script Call Call.Ret (Except Stop Unit × Variables))} :
    waitsFor Call.isExitTar proc = true ↔ ∃ next, proc = some (.call .exitTar next) := by
  rw [waitsFor_iff]
  constructor
  · rintro ⟨c, next, rfl, hc⟩
    unfold Call.isExitTar at hc
    split at hc
    · exact ⟨next, rfl⟩
    · cases hc
  · rintro ⟨next, rfl⟩
    exact ⟨_, next, rfl, rfl⟩

theorem tar_excludes_sample : ∃ s : Runs,
    Pool.run machine (program sampleSetup) (allowed true) ⟨atRest, fun _ => none⟩ (toTar second) = some s ∧
    (∃ next, s.procs second = some (.call .exitTar next)) ∧ Stopped s.world := by
  have hrun : ((Pool.run machine (program sampleSetup) (allowed true) ⟨atRest, fun _ => none⟩
      (toTar second)).map fun s => waitsFor Call.isExitTar (s.procs second)) = some true := by decide +kernel
  obtain ⟨s, hs, hw⟩ := Option.map_eq_some_iff.mp hrun
  obtain ⟨next, hp⟩ := waitsForTar_iff.mp hw
  exact ⟨s, hs, ⟨next, hp⟩, (tar_excludes atRest_initial (Pool.run_sound hs)).1 second next hp⟩

/-! ## A late `recover` run -/

/-- A backup is killed with the Lease, and two `recover` runs find that out. -/
def interruption : List (Event PodName Mode Choice Env) :=
  [.start first .backup] ++ acts first (preflightAnswers ++ fine 1) ++ [.stop first] ++
  [.start early .recover] ++ acts early (fine 2) ++ [.start late .recover] ++ acts late (fine 2)

/-- One of them recovers and frees the Lease, the next backup comes as far as
`tar`, and then the other one goes on where it stopped. -/
def tornRun : Option Runs :=
  Pool.run machine (program sampleSetup) always ⟨atRest, fun _ => none⟩
    (interruption ++ acts early (fine 9) ++ [.stop early] ++ toTar second ++ acts late (fine 1))

theorem tar_torn : ¬ ∀ (setup : Setup) (w : World) (s : Runs), Initial w →
    Reachable machine (program setup) always w s →
      ∀ p next, s.procs p = some (.call .exitTar next) → Stopped s.world := by
  intro h
  have hrun : (tornRun.map fun s =>
      (waitsFor Call.isExitTar (s.procs second), (s.world.workload .cassandra).replicas)) = some (true, 1) := by
    decide +kernel
  obtain ⟨s, hs, hw⟩ := Option.map_eq_some_iff.mp hrun
  simp only [Prod.mk.injEq] at hw
  obtain ⟨next, hp⟩ := waitsForTar_iff.mp hw.1
  have hstopped := h sampleSetup atRest s atRest_initial (Pool.run_sound hs) second next hp
  exact absurd (hw.2.symm.trans hstopped.cassandra) (by decide)

end CartyxInfra.Backup
