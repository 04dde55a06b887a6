/-
A run of `restore-cluster.mjs` in the namespace it has made: the credentials
go into the Secret, the archive's files into a volume that was empty, and the
release is installed on that volume.
-/
import CartyxInfra.Restore.Approval

namespace CartyxInfra.Restore

open JString Backup

variable {Tree : Type} [DecidableEq Tree] {setup : Setup Tree} {flag : Bool} {p : Pid} {space : JString}
  {bytes : Bytes} {environment : Namespace}

theorem verified_createNamespace :
    Verified setup flag p (Prepared setup p space bytes) (createNamespace space)
      fun _ w => Prepared setup p space bytes w ∧ Within p space Vacant w := by
  have hkept : Kept setup p (Prepared setup p space bytes) := (kept_approved.and kept_stored).and kept_written
  refine verified_call hkept fun w hw ha hb => ⟨⟨bytes, hb.1.1⟩, fun choice r w' hr => ?_⟩
  simp only [perform] at hr
  split at hr
  · obtain ⟨rfl, message, rfl⟩ := Fallible.refuse_eq hr
    exact ⟨.refl hw, .inr ⟨message, rfl⟩⟩
  · next hnone =>
    have hmoves : Moves p w (w.setSpace space (some { creator := some p })) := .makeSpace hw ha hnone
    rcases Fallible.write_eq hr with ⟨rfl, rfl⟩ | ⟨⟨message, rfl⟩, rfl | rfl⟩
    · exact ⟨hmoves, .inl ⟨(), rfl, hb, _, setSpace_self, rfl, rfl⟩⟩
    · exact ⟨.refl hw, .inr ⟨message, rfl⟩⟩
    · exact ⟨hmoves, .inr ⟨message, rfl⟩⟩

/-- The Secret gets what the files hold, and these hold the archive's credentials. -/
theorem verified_createSecret :
    Verified setup flag p (fun w => Prepared setup p space bytes w ∧ Within p space Vacant w)
      (createSecret space keys)
      fun _ w => Prepared setup p space bytes w ∧
        Within p space (fun w s => Vacant w s ∧ Sealed setup bytes w s) w := by
  have hkept : Kept setup p (Prepared setup p space bytes) := (kept_approved.and kept_stored).and kept_written
  refine verified_within hkept lasting_vacant (fun _ _ h => h)
    (fun _ _ ⟨s, hs, hc, _⟩ => ⟨s, hs, hc, trivial⟩) fun w s choice r w' hb hs hv hr => ?_
  simp only [perform, World.makeSecret] at hr
  split at hr
  · next data hdata =>
    have hsealed (w : World Tree) : Sealed setup bytes w (s.addSecret dataSecret data) :=
      ⟨data, by simp [Space.addSecret], credentials_eq hdata hb.2⟩
    rcases command_cases hs hr with ⟨rfl, rfl⟩ | ⟨⟨message, rfl⟩, rfl | rfl⟩
    · exact .inr ⟨_, rfl, rfl, .inl rfl, ⟨hv, hsealed _⟩, .inl rfl⟩
    · exact .inl ⟨rfl, message, rfl⟩
    · exact .inr ⟨_, rfl, rfl, .inl rfl, ⟨hv, hsealed _⟩, .inr ⟨message, rfl⟩⟩
  · obtain ⟨rfl, message, rfl⟩ := Fallible.refuse_eq hr
    exact .inl ⟨rfl, message, rfl⟩

/-- The approved archive, in the run's directory. -/
def Kit (setup : Setup Tree) (p : Pid) (space : JString) (bytes : Bytes) (w : World Tree) : Prop :=
  Approved setup p bytes w ∧ Stored setup p space bytes w

omit [DecidableEq Tree] in
theorem kept_kit : Kept setup p (Kit setup p space bytes) := kept_approved.and kept_stored

theorem verified_createClaim :
    Verified setup flag p
      (fun w => Kit setup p space bytes w ∧ Within p space (fun w s => Vacant w s ∧ Sealed setup bytes w s) w)
      (createClaim space)
      fun _ w => Kit setup p space bytes w ∧
        Within p space (fun w s => Vacant w s ∧ Sealed setup bytes w s) w :=
  verified_command (·.claim.isNone) (fun s => { s with claim := some none }) kept_kit
    (lasting_vacant.and lasting_sealed) (fun _ _ h => h)
    (fun _ _ ⟨s, hs, hc, _⟩ => ⟨s, hs, hc, trivial⟩) (fun _ => rfl) (fun _ => .inr rfl) (fun _ _ _ h => h)
    fun _ _ r _ hr => ⟨r, hr, rfl⟩

/-- A loader that has not started is not ready. -/
theorem verified_createJob {image : Option JString} :
    Verified setup flag p
      (fun w => Kit setup p space bytes w ∧ Within p space (fun w s => Vacant w s ∧ Sealed setup bytes w s) w)
      (createJob space image)
      fun _ w => Kit setup p space bytes w ∧
        Within p space (fun w s => (Vacant w s ∧ Honest setup w s) ∧ Sealed setup bytes w s) w :=
  verified_command (!·.job) (fun s => { s with job := true, loader := some .starting }) kept_kit
    (lasting_vacant.and lasting_sealed) (fun _ _ h => h)
    (fun _ _ ⟨s, hs, hc, _⟩ => ⟨s, hs, hc, trivial⟩) (fun _ => rfl) (fun _ => .inl rfl)
    (fun _ _ _ h => ⟨⟨h.1, fun hready => by cases hready⟩, h.2⟩) fun _ _ r _ hr => ⟨r, hr, rfl⟩

theorem verified_waitReady :
    Verified setup flag p
      (fun w => Kit setup p space bytes w ∧
        Within p space (fun w s => (Vacant w s ∧ Honest setup w s) ∧ Sealed setup bytes w s) w)
      (waitReady space)
      fun _ w => Kit setup p space bytes w ∧
        Within p space (fun w s => (Vacant w s ∧ Clean setup w s) ∧ Sealed setup bytes w s) w := by
  refine verified_within kept_kit (lasting_honest.and lasting_sealed) (fun _ _ h => h)
    (fun _ _ ⟨s, hs, hc, _⟩ => ⟨s, hs, hc, trivial⟩) fun w s choice r w' hb hs h hr => ?_
  obtain ⟨rfl, ⟨_, hfound, rfl⟩ | ⟨message, rfl⟩⟩ := Fallible.find_eq hr
  · have hready : s.loader = some .ready := by simpa [hs] using hfound
    refine .inr ⟨s, ?_, rfl, .inl rfl, ⟨⟨h.1.1, h.1.2 hready⟩, h.2⟩, .inl rfl⟩
    simp [World.setSpace, ← hs]
  · exact .inl ⟨rfl, message, rfl⟩

/-- The archive's files are in the volume that was empty. -/
def Filled (setup : Setup Tree) (p : Pid) (bytes : Bytes) (tree : Tree) (name : JString) (w : World Tree) :
    Prop :=
  Approved setup p bytes w ∧ setup.unpack bytes = some tree ∧ (name, bytes) ∈ w.extracted p

omit [DecidableEq Tree] in
theorem kept_filled {tree : Tree} {name : JString} : Kept setup p (Filled setup p bytes tree name) :=
  kept_approved.and ((Kept.const _).and kept_extracted)

/-- `tar` meets an empty volume, and leaves the archive's files there. -/
theorem verified_extract :
    Verified setup flag p
      (fun w => Kit setup p space bytes w ∧
        Within p space (fun w s => (Vacant w s ∧ Clean setup w s) ∧ Sealed setup bytes w s) w)
      (extract space)
      fun _ w => ∃ tree name, Filled setup p bytes tree name w ∧
        Within p space (fun w s => (Vacant w s ∧ Holds tree name w s) ∧ Sealed setup bytes w s) w := by
  refine verified_call (kept_kit.and (kept_within (lasting_clean.and lasting_sealed)))
    fun w hw ha ⟨⟨happroved, hstored⟩, hwithin⟩ => ⟨⟨bytes, happroved, hstored, hwithin⟩,
      fun choice r w' hr => ?_⟩
  obtain ⟨s, hs, hc, ⟨hvacant, name, hclaim, volume, hv, hempty⟩, hsealed⟩ := hwithin
  have harchive : w.files ⟨(setup.args p).host, space, .archive⟩ = some ⟨p, bytes⟩ := hstored
  simp only [perform, World.unpack, harchive, World.loaded, hs, hclaim, Option.bind_some] at hr
  split at hr
  · next name' volume' file hloaded hfile =>
    cases hfile
    split at hloaded
    · next n hn =>
      cases hn
      simp only [hv, Option.map_some, Option.some.injEq, Prod.mk.injEq] at hloaded
      obtain ⟨rfl, rfl⟩ := hloaded
      have hmoves (tree : Tree) : Moves p w (w.setVolume name { volume with tree := tree }) :=
        .setTree hw hs hc hclaim hv tree
      split at hr
      · next tree _ hunpack =>
        rw [if_pos hempty] at hr
        cases hr
        refine ⟨(hmoves tree).note rfl _, .inl ⟨(), rfl, tree, name, ⟨happroved, hunpack, ?_⟩, s, hs, hc,
          ⟨hvacant, hclaim, _, Function.update_self .., rfl⟩, hsealed⟩⟩
        simp
      · cases hr
        exact ⟨hmoves _, .inr ⟨_, rfl⟩⟩
    · cases hloaded
  · obtain ⟨rfl, message, rfl⟩ := Fallible.refuse_eq hr
    exact ⟨.refl hw, .inr ⟨message, rfl⟩⟩

theorem verified_deleteJob {tree : Tree} {name : JString} :
    Verified setup flag p
      (fun w => Filled setup p bytes tree name w ∧
        Within p space (fun w s => (Vacant w s ∧ Holds tree name w s) ∧ Sealed setup bytes w s) w)
      (deleteJob space)
      fun _ w => Filled setup p bytes tree name w ∧
        Within p space (fun w s => ((Vacant w s ∧ Holds tree name w s) ∧ Sealed setup bytes w s) ∧
          Unloaded w s) w :=
  verified_command (·.job) (fun s => { s with job := false }) kept_filled
    (lasting_holds.and lasting_sealed) (fun _ _ h => h)
    (fun _ _ ⟨s, hs, hc, _⟩ => ⟨s, hs, hc, trivial⟩) (fun _ => rfl) (fun _ => .inl rfl)
    (fun _ _ _ h => ⟨h, rfl⟩) fun _ _ r _ hr => ⟨r, hr, rfl⟩

theorem verified_helm {tree : Tree} {name : JString}
    (henvironment : (setup.args p).environment = some environment) :
    Verified setup flag p
      (fun w => Filled setup p bytes tree name w ∧
        Within p space (fun w s => ((Vacant w s ∧ Holds tree name w s) ∧ Sealed setup bytes w s) ∧
          Unloaded w s) w)
      (helm space environment)
      fun _ w => Filled setup p bytes tree name w ∧
        Within p space (fun w s => Sealed setup bytes w s ∧
          Installed (setup.values p environment) name w s) w :=
  verified_command (fun _ => true) (fun s => { s with release := some (setup.values p environment) }) kept_filled
    ((lasting_holds.and lasting_sealed).and lasting_unloaded) (fun _ _ h => h)
    (fun _ ⟨happroved, hunpack, hextracted⟩ hwithin =>
      ⟨henvironment, bytes, tree, name, happroved, hunpack, hextracted, hwithin⟩)
    (fun _ => rfl) (fun _ => .inl rfl) (fun _ _ _ h => ⟨h.1.2, h.1.1.2.1, rfl⟩) fun _ _ r _ hr => ⟨r, hr, rfl⟩

/-- From the namespace to the volume that holds the archive's files. -/
theorem verified_load {parsed : Parsed} :
    Verified setup flag p (Prepared setup p space bytes) (load parsed space)
      fun _ w => ∃ tree name, Filled setup p bytes tree name w ∧
        Within p space (fun w s => ((Vacant w s ∧ Holds tree name w s) ∧ Sealed setup bytes w s) ∧
          Unloaded w s) w := by
  refine Triple.bind verified_createNamespace fun _ => ?_
  refine Triple.bind verified_createSecret fun _ => ?_
  refine Triple.bind (verified_createClaim.conseq (fun _ h => ⟨h.1.1, h.2⟩) fun _ _ h => h) fun _ => ?_
  refine Triple.bind verified_createJob fun _ => ?_
  refine Triple.bind verified_waitReady fun _ => ?_
  refine Triple.bind verified_extract fun _ => ?_
  refine Owned.exists_pre fun tree => Owned.exists_pre fun name => ?_
  exact verified_deleteJob.conseq (fun _ h => h) fun _ _ h => ⟨tree, name, h⟩

end CartyxInfra.Restore
