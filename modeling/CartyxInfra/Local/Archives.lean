/-
What the lock of `backup.mjs` is for, over every run of any number of backups
and restores, killed wherever they may be: `tar` reads a stopped Cassandra's
volume, a manifest that is there has the checksum of what `tar` read, no run
writes to a volume that holds data, and what a restore starts on is what a
backup captured.
-/
import CartyxInfra.Local.LocalRestore

namespace CartyxInfra.Local

open JString

variable {Tree : Type} {setup : Setup Tree} {w w' : World Tree} {s : Runs Tree}

theorem allowed_none :
    (allowed {} : World Tree → Move Pid Call (Choice Tree) (Env Tree) → Bool) = always := by
  funext w m
  cases m with
  | act p c choice => cases c <;> rfl
  | env e => cases e <;> rfl

/-! ## A stack at rest -/

/-- A tree of one bit, and archives of one byte. -/
def sampleTar : Tar Bool where
  pack tree := [if tree then 1 else 0]
  unpack bytes := if bytes = [1] then some true else if bytes = [0] then some false else none
  unpack_pack := by decide
  empty := false

/-- A setup with the content for its own checksum. -/
def sampleSetup : Setup Bool := ⟨sampleTar, List.map UInt8.toUInt16⟩

/-- The images of the stack. -/
def sampleImages : Images := ⟨utf16 "cassandra:5", utf16 "janusgraph:1"⟩

/-- A container of the stack that is up. -/
def sampleContainer : Service → Container
  | .cassandra => ⟨utf16 "c1", ⟨utf16 "cassandra:5", utf16 "sha256:c", some (utf16 "cartyx-local_cassandra-data")⟩,
      true, false, false⟩
  | .janusgraph => ⟨utf16 "g1", ⟨utf16 "janusgraph:1", utf16 "sha256:g", none⟩, true, false, false⟩

/-- Both databases running, and Cassandra's volume with a tree in it. -/
def atRest : World Bool where
  lock := none
  life _ := .unborn
  containers s := some (sampleContainer s)
  volumes name := if name = utf16 "cartyx-local_cassandra-data" then some true else none
  files _ := none
  override := none
  restored := none
  clock := 0
  reading _ := none
  captured := []

theorem atRest_initial : Initial atRest where
  unlocked := rfl
  unborn _ := rfl
  bare _ _ := by simp [atRest]
  ofStack := by decide +kernel
  restored := ⟨rfl, rfl⟩
  started s c h := by
    cases h
    cases s <;> rfl

/-- A call that succeeds. -/
def fine : Choice Bool := { images := sampleImages, imageId := utf16 "sha256:c", container := sampleContainer }

/-- A run's next calls, all of which succeed. -/
def acts (p : Pid) (n : Nat) : List (Event Pid Mode (Choice Bool) (Env Bool)) := List.replicate n (.act p fine)

/-- A backup from its start to its end. -/
def wholeBackup (p : Pid) : List (Event Pid Mode (Choice Bool) (Env Bool)) :=
  [.start p .localBackup] ++ acts p 18 ++ [.stop p]

/-- A restore of what a backup at time 0 leaves, up to the start of the restored stack. -/
def toUpRestored (p : Pid) : List (Event Pid Mode (Choice Bool) (Env Bool)) :=
  [.start p (.localRestore (some (destination (backupId 0)).json))] ++ acts p 5 ++
    [.act p { fine with imageId := utf16 "sha256:g" }] ++ acts p 5

/-- The pool after some events, none of which breaks a condition. -/
def sampleRun (k : Conditions) (events : List (Event Pid Mode (Choice Bool) (Env Bool))) : Option (Runs Bool) :=
  Pool.run (machine sampleSetup) program (allowed k) ⟨atRest, fun _ => none⟩ events

theorem sampleRun_reachable {k : Conditions} {events : List (Event Pid Mode (Choice Bool) (Env Bool))}
    {s : Runs Bool} (h : sampleRun k events = some s) :
    Reachable (machine sampleSetup) program (allowed k) atRest s := Pool.run_sound h

/-- The calls that are for the holder of the lock only. -/
def Call.guarded : Call → Bool
  | .config | .makeOutput | .makeLock => false
  | _ => true

theorem Pending.held {k : Conditions} {p : Pid} {c : Call} (hc : c.guarded = true)
    (h : Pending k setup p c w) : Held p w := by
  cases c with
  | config | makeOutput | makeLock => cases hc
  | startTar | exitTar | extract | upRestored => exact h.1
  | _ => exact h

theorem write_volumes {choice : Choice Tree} {v : World Tree} {r : Reply Unit}
    (h : choice.write w v = some (r, w')) (hv : v.volumes = w.volumes) : w'.volumes = w.volumes := by
  rcases Fallible.write_eq h with ⟨-, rfl⟩ | ⟨-, rfl | rfl⟩
  · exact hv
  · rfl
  · exact hv

/-- The calls that write to a volume. -/
def Call.writesVolume : Call → Bool
  | .createVolume _ | .extract .. => true
  | _ => false

/-- Whether a manifest can be read at a path. -/
def World.readable (w : World Tree) (path : Path) : Bool :=
  match w.files path with
  | some (.manifest (some _)) => true
  | _ => false

theorem World.readable_iff {path : Path} :
    w.readable path = true ↔ ∃ m, w.files path = some (.manifest (some m)) := by
  unfold World.readable
  split
  · next m hm => simpa using ⟨m, hm⟩
  · next h => simpa using h

variable [DecidableEq Tree]

/-- **Mutual exclusion.** A run between taking the lock and giving it back is alone there, and
the lock it gives back is its own. -/
theorem lock_exclusive (h₀ : Initial w) (h : Reachable (machine setup) program always w s) {p : Pid} {c : Call}
    {next : c.Ret → Script Call Call.Ret (Except JString Unit × Unit)} (hp : s.procs p = some (.call c next))
    (hc : c.guarded = true) :
    s.world.lock = some p ∧ ∀ q d next', s.procs q = some (.call d next') → d.guarded = true → q = p := by
  rw [← allowed_none] at h
  have hsound := keeping h₀ h
  have hheld : Held p s.world := (hsound.pending hp).held hc
  refine ⟨hheld.lock, fun q d next' hq hd => ?_⟩
  have hheld' : Held q s.world := (hsound.pending hq).held hd
  exact Option.some.inj (hheld'.lock.symm.trans hheld.lock)

/-- A backup's `tar` is at work, and another run waits for the lock. -/
theorem lock_exclusive_sample : ∃ s : Runs Bool,
    sampleRun {} ([.start 1 .localBackup] ++ acts 1 12 ++ [.start 2 .localBackup] ++ acts 2 2) = some s ∧
      ∃ c next, s.procs 1 = some (.call c next) ∧ c.guarded = true ∧ s.world.lock = some 1 := by
  have hrun : ((sampleRun {} ([.start 1 .localBackup] ++ acts 1 12 ++ [.start 2 .localBackup] ++ acts 2 2)).map
      fun s => waitsFor Call.guarded (s.procs 1)) = some true := by decide +kernel
  obtain ⟨s, hs, hw⟩ := Option.map_eq_some_iff.1 hrun
  obtain ⟨c, next, hp, hc⟩ := waitsFor_iff.1 hw
  have h := sampleRun_reachable hs
  rw [allowed_none] at h
  exact ⟨s, hs, c, next, hp, hc, (lock_exclusive atRest_initial h hp hc).1⟩

/-- **A still volume.** While `tar` reads, Cassandra is stopped on the volume, nothing else runs
on it, and nothing has written to it since; and unless Docker starts databases again, it was
drained before. -/
theorem tar_reads_still (steady : Bool) (h₀ : Initial w)
    (h : Reachable (machine setup) program (allowed { steady }) w s) {p : Pid} {destination : Path}
    {next : Reply Unit → Script Call Call.Ret (Except JString Unit × Unit)}
    (hp : s.procs p = some (.call (.exitTar destination) next)) :
    ∃ volume c, s.world.containers .cassandra = some c ∧ c.details.volume = some volume ∧
      c.stopped = true ∧ c.running = false ∧ (steady = true → c.drained = true) ∧
        s.world.inUse volume = false ∧ s.world.reading p = some ⟨volume, false⟩ := by
  have hsound := keeping h₀ h
  obtain ⟨-, volume, hstill, hreading⟩ := hsound.pending hp
  have hunused := hstill.unused hsound.inv
  obtain ⟨c, hc, hvolume, hstopped, hdown, hdrained⟩ := hstill
  exact ⟨volume, c, hc, hvolume, hstopped, hdown, hdrained, hunused, hreading⟩

/-- A run waits for its `tar`. -/
def Call.isExitTar : Call → Bool
  | .exitTar _ => true
  | _ => false

theorem tar_reads_still_sample : ∃ s : Runs Bool,
    sampleRun { steady := true } ([.start 1 .localBackup] ++ acts 1 12) = some s ∧
      ∃ volume, s.world.reading 1 = some ⟨volume, false⟩ ∧ s.world.inUse volume = false := by
  have hrun : ((sampleRun { steady := true } ([.start 1 .localBackup] ++ acts 1 12)).map
      fun s => waitsFor Call.isExitTar (s.procs 1)) = some true := by decide +kernel
  obtain ⟨s, hs, hw⟩ := Option.map_eq_some_iff.1 hrun
  obtain ⟨c, next, hp, hc⟩ := waitsFor_iff.1 hw
  cases c with
  | exitTar destination =>
    obtain ⟨volume, _, -, -, -, -, -, hunused, hreading⟩ :=
      tar_reads_still true atRest_initial (sampleRun_reachable hs) hp
    exact ⟨s, hs, volume, hreading, hunused⟩
  | _ => cases hc

/-- **Honest manifests.** A manifest that can be read, wherever it is, names what `tar` has read
whole of an untouched volume, with its checksum. -/
theorem manifest_honest (h₀ : Initial w) (h : Reachable (machine setup) program always w s) {path : Path}
    {m : Manifest} (hm : s.world.files path = some (.manifest (some m))) :
    ∃ file tree, (file, tree) ∈ s.world.captured ∧ m.file = some file ∧
      m.sha256 = some (setup.sha256 (setup.tar.pack tree)) := by
  rw [← allowed_none] at h
  exact (keeping h₀ h).inv.honest path m hm

theorem manifest_honest_sample : ∃ s : Runs Bool, sampleRun {} (wholeBackup 1) = some s ∧
    ∃ file tree, (file, tree) ∈ s.world.captured := by
  have hrun : ((sampleRun {} (wholeBackup 1)).map fun s =>
      s.world.readable (destination (backupId 0)).json) = some true := by decide +kernel
  obtain ⟨s, hs, hw⟩ := Option.map_eq_some_iff.1 hrun
  have h := sampleRun_reachable hs
  rw [allowed_none] at h
  obtain ⟨m, hm⟩ := World.readable_iff.1 hw
  obtain ⟨file, tree, hmem, -⟩ := manifest_honest atRest_initial h hm
  exact ⟨s, hs, file, tree, hmem⟩

theorem perform_volumes {p : Pid} {c : Call} {choice : Choice Tree} {r : c.Ret}
    (hc : c.writesVolume = false) (h : perform setup p c choice w = some (r, w')) :
    w'.volumes = w.volumes := by
  cases c with
  | createVolume | extract => cases hc
  | config | makeOutput | now | ps | inspect | imageId | hash | readManifest | smokeVerify =>
    rw [perform_reads rfl h]
  | stop | writeManifest | writeOverride | upRestored => exact write_volumes h rfl
  | makeLock =>
    simp only [perform] at h
    split at h
    · rw [(Fallible.refuse_eq h).1]
    · split at h <;> cases h <;> rfl
  | removeLock | drain | startTar =>
    simp only [perform] at h
    split at h
    all_goals first
      | exact write_volumes h rfl
      | rw [(Fallible.refuse_eq h).1]
  | exitTar destination =>
    simp only [perform] at h
    split at h
    · cases h
      simp only [World.exitTar]
      split <;> rfl
    · cases h
      rfl
  | up =>
    simp only [perform, Option.ite_none_right_eq_some, Option.some.injEq, Prod.mk.injEq] at h
    rw [← h.2.2]
    rfl

/-- **Data stays.** No step of a backup or a restore changes a volume that holds data. -/
theorem volumes_kept (h₀ : Initial w) (h : Reachable (machine setup) program (allowed { fresh := true }) w s)
    {p : Pid} {c : Call} {next : c.Ret → Script Call Call.Ret (Except JString Unit × Unit)}
    (hp : s.procs p = some (.call c next)) {choice : Choice Tree} {r : c.Ret}
    (hr : perform setup p c choice s.world = some (r, w'))
    {volume : JString} {tree : Tree} (hv : s.world.volumes volume = some tree) (hne : tree ≠ setup.tar.empty) :
    w'.volumes volume = some tree := by
  have hpending := (keeping h₀ h).pending hp
  have hother (name : JString) (tree' : Tree) (hname : volume ≠ name) :
      (s.world.setVolume name tree').volumes volume = some tree := by
    rw [← hv]
    exact Function.update_of_ne hname ..
  cases hc : c.writesVolume with
  | false => rw [perform_volumes hc hr, hv]
  | true =>
    cases c with
    | createVolume name =>
      have hset : (s.world.setVolume name ((s.world.volumes name).getD setup.tar.empty)).volumes volume =
          some tree := by
        by_cases hname : volume = name
        · subst hname
          simp [World.setVolume, hv]
        · exact hother name _ hname
      rcases Fallible.write_eq hr with ⟨-, rfl⟩ | ⟨-, rfl | rfl⟩
      · exact hset
      · exact hv
      · exact hset
    | extract name image archive =>
      obtain ⟨hempty, -⟩ := hpending.2.1 rfl
      have hname : volume ≠ name := by
        rintro rfl
        exact hne (Option.some.inj (hv.symm.trans hempty))
      simp only [perform] at hr
      split at hr
      · split at hr
        · cases hr
          unfold World.extract
          split <;> exact hother name _ hname
        · cases hr
          exact hother name _ hname
      · cases hr
        exact hother name _ hname
    | _ => cases hc

/-- A run is about to extract. -/
def Call.isExtract : Call → Bool
  | .extract .. => true
  | _ => false

/-- A restore's next call is to extract the archive, and the stack's own volume holds data. -/
theorem volumes_kept_sample : ∃ s : Runs Bool,
    sampleRun { fresh := true } (wholeBackup 1 ++ (toUpRestored 2).dropLast.dropLast) = some s ∧
      ∃ c next, s.procs 2 = some (.call c next) ∧ c.isExtract = true ∧
        ∀ choice r w', perform sampleSetup 2 c choice s.world = some (r, w') →
          w'.volumes (utf16 "cartyx-local_cassandra-data") = some true := by
  have hrun : ((sampleRun { fresh := true } (wholeBackup 1 ++ (toUpRestored 2).dropLast.dropLast)).map
      fun s => (waitsFor Call.isExtract (s.procs 2),
        s.world.volumes (utf16 "cartyx-local_cassandra-data"))) = some (true, some true) := by decide +kernel
  obtain ⟨s, hs, hw⟩ := Option.map_eq_some_iff.1 hrun
  simp only [Prod.mk.injEq] at hw
  obtain ⟨c, next, hp, hc⟩ := waitsFor_iff.1 hw.1
  exact ⟨s, hs, c, next, hp, hc, fun choice r w' hr =>
    volumes_kept atRest_initial (sampleRun_reachable hs) hp hr hw.2 (by decide)⟩

/-- **Round trip.** What a restored stack is started on is what the archive holds, and the archive
has the checksum of a tree that `tar` captured: it is that tree unless the checksum collides. -/
theorem restore_captured (h₀ : Initial w)
    (h : Reachable (machine setup) program (allowed { fresh := true }) w s) {p : Pid}
    {next : Reply Unit → Script Call Call.Ret (Except JString Unit × Unit)}
    (hp : s.procs p = some (.call .upRestored next)) :
    ∃ volume tree, s.world.override = some volume ∧ s.world.volumes volume = some tree ∧
      ∃ bytes file captured, setup.tar.unpack bytes = some tree ∧ (file, captured) ∈ s.world.captured ∧
        setup.sha256 bytes = setup.sha256 (setup.tar.pack captured) ∧
          (bytes = setup.tar.pack captured → tree = captured) := by
  obtain ⟨-, hready⟩ := (keeping h₀ h).pending hp
  obtain ⟨volume, bytes, tree, hoverride, hvolume, hunpack, file, captured, hmem, hsum⟩ := hready rfl
  refine ⟨volume, tree, hoverride, hvolume, bytes, file, captured, hunpack, hmem, hsum, fun hbytes => ?_⟩
  rw [hbytes, setup.tar.unpack_pack] at hunpack
  exact (Option.some.inj hunpack).symm

/-- A run is about to start the rehearsal stack. -/
def Call.isUpRestored : Call → Bool
  | .upRestored => true
  | _ => false

/-- A backup, and a restore of what it leaves. -/
theorem restore_captured_sample : ∃ s : Runs Bool,
    sampleRun { fresh := true } (wholeBackup 1 ++ toUpRestored 2) = some s ∧
      ∃ volume tree, s.world.override = some volume ∧ s.world.volumes volume = some tree := by
  have hrun : ((sampleRun { fresh := true } (wholeBackup 1 ++ toUpRestored 2)).map
      fun s => waitsFor Call.isUpRestored (s.procs 2)) = some true := by decide +kernel
  obtain ⟨s, hs, hw⟩ := Option.map_eq_some_iff.1 hrun
  obtain ⟨c, next, hp, hc⟩ := waitsFor_iff.1 hw
  cases c with
  | upRestored =>
    obtain ⟨volume, tree, hoverride, hvolume, -⟩ :=
      restore_captured atRest_initial (sampleRun_reachable hs) hp
    exact ⟨s, hs, volume, tree, hoverride, hvolume⟩
  | _ => cases hc

end CartyxInfra.Local
