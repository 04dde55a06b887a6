/-
The rehearsal over every run: `restore_isolated` says what a run leaves alone,
`restore_installs` what its release is installed on, `restore_tells` what its
result is worth.
-/
import CartyxInfra.Restore.Restored

namespace CartyxInfra.Restore

open JString Backup

/-- The namespace that a command is for. -/
def Call.target : Call → Option JString
  | .createSecret space _ | .createClaim space | .createJob space _ | .waitReady space | .extract space
  | .deleteJob space | .helm space _ | .portForward space | .verify _ space _ | .getClaim space => some space
  | _ => none

/-! ## A development namespace, and a backup of it -/

/-- Two workstations with the same arguments. -/
def sampleSetup : Setup Bool where
  args p :=
    { environment := some .dev
      manifestKey := some renamed.manifestKey
      settings := fun _ => none
      checkout := renamed.checkout
      host := p }
  tools := sampleTools
  bufferText := List.map UInt8.toUInt16
  unpack _ := some true
  empty := false

/-- The Secret that has the bucket's connection. -/
def sampleSecret : Data :=
  ["R2_ACCOUNT_ID", "R2_BUCKET", "AWS_ACCESS_KEY_ID", "AWS_SECRET_ACCESS_KEY"].map fun key => (utf16 key, [97])

/-- The namespace `dev`, and the bucket of its backups. -/
def sampleWorld : World Bool where
  clock := 0
  life _ := .unborn
  objects _ key := renamed.object key
  files _ := none
  spaces space :=
    if space = utf16 "dev" then
      some { creator := none, secrets := fun name => if name = backupSecret then some sampleSecret else none }
    else none
  volumes _ := none
  forwards _ := false
  downloads _ := []
  extracted _ := []

theorem sampleWorld_initial : Initial sampleWorld where
  unborn _ := rfl
  spaces space s h := by
    simp only [sampleWorld, Option.ite_none_right_eq_some, Option.some.injEq] at h
    rw [← h.2]
  claims space s name h hclaim := by
    simp only [sampleWorld, Option.ite_none_right_eq_some, Option.some.injEq] at h
    rw [← h.2] at hclaim
    cases hclaim
  quiet _ := rfl
  downloads _ := rfl
  extracted _ := rfl

/-- A run's next calls, all of which succeed. -/
def acts (p : Pid) (n : Nat) : List (Event Pid Unit (Choice Bool) (Env Bool)) := List.replicate n (.act p {})

/-- Both runs have this name for their namespace. -/
def sampleSpace : JString := spaceName .dev 0

/-- The cluster makes a volume, binds the claim to it and starts the loader. -/
def provisioned : List (Event Pid Unit (Choice Bool) (Env Bool)) :=
  [.env (.provision (utf16 "pv") false), .env (.bind sampleSpace (utf16 "pv")), .env (.schedule sampleSpace)]

/-- A run up to `helm`. -/
def toHelm (p : Pid) : List (Event Pid Unit (Choice Bool) (Env Bool)) :=
  [.start p ()] ++ acts p 29 ++ provisioned ++ acts p 3

/-- The pool after some events. -/
def sampleRun (events : List (Event Pid Unit (Choice Bool) (Env Bool))) : Option (Runs Bool) :=
  Pool.run (machine sampleSetup) (program sampleSetup) always ⟨sampleWorld, fun _ => none⟩ events

theorem sampleRun_reachable {events : List (Event Pid Unit (Choice Bool) (Env Bool))} {s : Runs Bool}
    (h : sampleRun events = some s) :
    Reachable (machine sampleSetup) (program sampleSetup) always sampleWorld s := Pool.run_sound h

/-- Whether a process has returned, or thrown. -/
def hasEnded : Option (Script Call Call.Ret (Except JString Result × Bool)) → Bool
  | some (.pure _) => true
  | _ => false

/-- What a process has returned. -/
def returned : Option (Script Call Call.Ret (Except JString Result × Bool)) → Option Result
  | some (.pure (.ok result, _)) => some result
  | _ => none

theorem returned_eq {proc : Option (Script Call Call.Ret (Except JString Result × Bool))} {result : Result}
    (h : returned proc = some result) : ∃ flag, proc = some (.pure (.ok result, flag)) := by
  unfold returned at h
  split at h
  · next flag =>
    cases h
    exact ⟨flag, rfl⟩
  · cases h

section

variable {Tree : Type} {setup : Setup Tree} {w w' : World Tree} {s : Runs Tree} {p : Pid}

theorem Pending.target {c : Call} {space : JString} (h : Pending setup p c w) (ht : c.target = some space) :
    Within p space (fun _ _ => True) w := by
  cases c with
  | createSecret | createClaim | createJob | waitReady | deleteJob | portForward | verify | getClaim =>
    cases ht
    exact h
  | extract =>
    cases ht
    obtain ⟨archive, -, -, t, hs, hcreator, -⟩ := h
    exact ⟨t, hs, hcreator, trivial⟩
  | helm =>
    cases ht
    obtain ⟨-, archive, tree, name, -, -, -, t, hs, hcreator, -⟩ := h
    exact ⟨t, hs, hcreator, trivial⟩
  | _ => cases ht

variable [DecidableEq Tree]

/-- **Isolation.** A command of a run is for a namespace that this run has made, all it reads
elsewhere is the bucket's connection, and its calls leave alone every other namespace, the volumes
bound to others, the bucket and the other runs. -/
theorem restore_isolated (h₀ : Initial w) (h : Reachable (machine setup) (program setup) always w s) {c : Call}
    {next : c.Ret → Script Call Call.Ret (Except JString Result × Bool)}
    (hp : s.procs p = some (.call c next)) :
    (∀ space, c.target = some space → ∃ t, s.world.spaces space = some t ∧ t.creator = some p) ∧
      (∀ space name, c = .getSecret space name →
        name = backupSecret ∧ (setup.args p).environment.map Namespace.text = some space) ∧
      ∀ choice r w', perform setup p c choice s.world = some (r, w') → Guarantee p s.world w' := by
  have hsound := keeping h₀ h
  have hpending : Pending setup p c s.world := hsound.pending hp
  refine ⟨fun space ht => ?_, fun space name hc => ?_, fun choice r w' hr => ?_⟩
  · obtain ⟨t, hs, hcreator, -⟩ := hpending.target ht
    exact ⟨t, hs, hcreator⟩
  · subst hc
    exact hpending
  · exact (hsound.performs hp hr rfl).2.1

/-- Two runs read the same millisecond: the namespace is the first one's, and its next command is there. -/
theorem restore_isolated_sample : ∃ s : Runs Bool,
    sampleRun ([.start 1 (), .start 2 ()] ++ acts 1 26 ++ acts 2 26) = some s ∧ hasEnded (s.procs 2) = true ∧
      ∃ c next, s.procs 1 = some (.call c next) ∧ c.target = some sampleSpace ∧
        ∃ t, s.world.spaces sampleSpace = some t ∧ t.creator = some 1 := by
  have hrun : ((sampleRun ([.start 1 (), .start 2 ()] ++ acts 1 26 ++ acts 2 26)).map fun s =>
      (hasEnded (s.procs 2), waitsFor (fun c => c.target == some sampleSpace) (s.procs 1))) =
        some (true, true) := by decide +kernel
  obtain ⟨s, hs, hw⟩ := Option.map_eq_some_iff.1 hrun
  simp only [Prod.mk.injEq] at hw
  obtain ⟨c, next, hp, hc⟩ := waitsFor_iff.1 hw.2
  have htarget : c.target = some sampleSpace := by simpa using hc
  exact ⟨s, hs, hw.1, c, next, hp, htarget,
    (restore_isolated sampleWorld_initial (sampleRun_reachable hs) hp).1 sampleSpace htarget⟩

/-- **Installation.** When a run installs the release, its own namespace's volume holds just the
files of the archive that has passed the guard, unpacked whole into a volume that was empty; the
loader's Job is gone, and the Secret has the archive's credentials. -/
theorem restore_installs (h₀ : Initial w) (h : Reachable (machine setup) (program setup) always w s)
    {space : JString} {environment : Namespace}
    {next : Reply Unit → Script Call Call.Ret (Except JString Result × Bool)}
    (hp : s.procs p = some (.call (.helm space environment) next)) :
    (setup.args p).environment = some environment ∧
      ∃ archive tree name t volume, Approved setup p archive s.world ∧ setup.unpack archive = some tree ∧
        s.world.spaces space = some t ∧ t.creator = some p ∧ t.release = none ∧ t.job = false ∧
          t.claim = some (some name) ∧ s.world.volumes name = some volume ∧ volume.claimRef = some space ∧
            volume.tree = tree ∧ (name, archive) ∈ s.world.extracted p ∧ Sealed setup archive s.world t := by
  have hsound := keeping h₀ h
  obtain ⟨henvironment, archive, tree, name, happroved, hunpack, hextracted, t, hs, hcreator,
    ⟨⟨hvacant, hclaim, volume, hv, htree⟩, hsealed⟩, hunloaded⟩ := hsound.pending hp
  exact ⟨henvironment, archive, tree, name, t, volume, happroved, hunpack, hs, hcreator, hvacant, hunloaded,
    hclaim, hv, bound_eq (hsound.inv.claims space t name hs hclaim) hv, htree, hextracted, hsealed⟩

/-- A run is about to install the release. -/
def Call.isHelm : Call → Bool
  | .helm .. => true
  | _ => false

/-- A run installs on the sample's files. -/
theorem restore_installs_sample : ∃ s : Runs Bool, sampleRun (toHelm 1) = some s ∧
    ∃ name volume, s.world.volumes name = some volume ∧ volume.tree = true := by
  have hrun : ((sampleRun (toHelm 1)).map fun s => waitsFor Call.isHelm (s.procs 1)) = some true := by
    decide +kernel
  obtain ⟨s, hs, hw⟩ := Option.map_eq_some_iff.1 hrun
  obtain ⟨c, next, hp, hc⟩ := waitsFor_iff.1 hw
  cases c with
  | helm space environment =>
    obtain ⟨-, archive, tree, name, t, volume, -, hunpack, -, -, -, -, -, hv, -, htree, -⟩ :=
      restore_installs sampleWorld_initial (sampleRun_reachable hs) hp
    obtain rfl : true = tree := Option.some.inj hunpack
    exact ⟨s, hs, name, volume, hv, htree⟩
  | _ => cases hc

/-- **The result.** A run that has ended has no port-forward left, and what it returns is so: the
namespace is its own, the release is there with the checkout's values on the volume told, and that
volume has got all of the archive that has passed the guard and has the checksum told. -/
theorem restore_tells (h₀ : Initial w) (h : Reachable (machine setup) (program setup) always w s)
    {out : Except JString Result × Bool} (hp : s.procs p = some (.pure out)) :
    s.world.forwards p = false ∧ ∀ result, out.1 = .ok result → Restored setup p result s.world := by
  obtain ⟨⟨-, hforward⟩, hresult⟩ : Outcome setup p out s.world := (keeping h₀ h).result hp
  exact ⟨hforward, hresult⟩

/-- A whole run, and the volume it tells. -/
theorem restore_tells_sample : ∃ s : Runs Bool, sampleRun (toHelm 1 ++ acts 1 9) = some s ∧
    ∃ result, returned (s.procs 1) = some result ∧ result.volume = some (utf16 "pv") ∧
      Restored sampleSetup 1 result s.world := by
  have hrun : ((sampleRun (toHelm 1 ++ acts 1 9)).bind fun s => (returned (s.procs 1)).map (·.volume)) =
      some (some (utf16 "pv")) := by decide +kernel
  obtain ⟨s, hs, hr⟩ := Option.bind_eq_some_iff.1 hrun
  obtain ⟨result, hresult, hvolume⟩ := Option.map_eq_some_iff.1 hr
  obtain ⟨flag, hp⟩ := returned_eq hresult
  exact ⟨s, hs, result, hresult, hvolume,
    (restore_tells sampleWorld_initial (sampleRun_reachable hs) hp).2 result rfl⟩

end

end CartyxInfra.Restore
