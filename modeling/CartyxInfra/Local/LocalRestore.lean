/-
A restore keeps to the lock: it checks an archive against its manifest, and
writes only a volume of its own.
-/
import CartyxInfra.Local.LocalVerified

namespace CartyxInfra.Local

open JString

variable {Tree : Type} {k : Conditions} {setup : Setup Tree} {p q : Pid} {w w' : World Tree} {α β : Type}

/-- The archive's bytes have a captured tree's checksum. -/
def Checked (k : Conditions) (setup : Setup Tree) (p : Pid) (archive : Path) (bytes : Bytes)
    (w : World Tree) : Prop :=
  Done k p w ∧ w.files archive = some (.archive bytes) ∧ Genuine setup bytes w

/-- The volume is new, and nothing runs on it. -/
def Empty (k : Conditions) (setup : Setup Tree) (volume : JString) (w : World Tree) : Prop :=
  k.fresh = true → w.volumes volume = some setup.tar.empty ∧ w.restored ≠ some volume

/-- The volume holds what the bytes hold, and nothing runs on it. -/
def Extracted (k : Conditions) (setup : Setup Tree) (volume : JString) (bytes : Bytes)
    (w : World Tree) : Prop :=
  k.fresh = true → ∃ tree, w.volumes volume = some tree ∧ setup.tar.unpack bytes = some tree ∧
    w.restored ≠ some volume

theorem inUse_of_restoreName {volume : JString} (hw : Inv k setup w) (hname : restoreName volume = true)
    (h : w.restored ≠ some volume) : w.inUse volume = false := by
  have hcassandra : ((w.containers .cassandra).any fun c => c.running && c.details.volume == some volume) =
      false := by
    cases hc : w.containers .cassandra with
    | none => rfl
    | some c =>
      have hne : c.details.volume ≠ some volume := by
        intro hv
        rw [hw.ofStack .cassandra c volume hc hv] at hname
        cases hname
      simp [hne]
  simp [World.inUse, h, hcassandra]

theorem guarded_checked {archive : Path} {bytes : Bytes} :
    Guarded k setup p (Checked k setup p archive bytes) :=
  fun w h => ⟨h.1.held, fun w' hw hc =>
    ⟨(guarded_done w h.1).2 w' hw hc, by rw [hc.files, h.2.1], h.2.2.calm hc⟩⟩

theorem guarded_empty {archive : Path} {bytes : Bytes} {volume : JString} (hname : restoreName volume = true) :
    Guarded k setup p fun w => Checked k setup p archive bytes w ∧ Empty k setup volume w := by
  rintro w ⟨h, he⟩
  refine ⟨h.1.held, fun w' hw hc => ⟨(guarded_checked w h).2 w' hw hc, fun hk => ?_⟩⟩
  obtain ⟨hv, hr⟩ := he hk
  exact ⟨by rw [hc.volumes volume (inUse_of_restoreName hw hname hr), hv], by rwa [hc.restored]⟩

theorem guarded_extracted {archive : Path} {bytes : Bytes} {volume : JString}
    (hname : restoreName volume = true) :
    Guarded k setup p fun w => Checked k setup p archive bytes w ∧ (w.volumes volume).isSome = true ∧
      Extracted k setup volume bytes w := by
  rintro w ⟨h, hthere, he⟩
  refine ⟨h.1.held, fun w' hw hc =>
    ⟨(guarded_checked w h).2 w' hw hc, hc.there volume hthere, fun hk => ?_⟩⟩
  obtain ⟨tree, hv, hu, hr⟩ := he hk
  exact ⟨tree, by rw [hc.volumes volume (inUse_of_restoreName hw hname hr), hv], hu, by rwa [hc.restored]⟩

theorem restoreName_volumeName (time : Int) : restoreName (volumeName time) = true :=
  List.isPrefixOf_iff_prefix.2 (List.prefix_append ..)

theorem Checked.setVolume {archive : Path} {bytes : Bytes} (h : Checked k setup p archive bytes w)
    (volume : JString) (tree : Tree) : Checked k setup p archive bytes (w.setVolume volume tree) :=
  ⟨⟨⟨h.1.held.lock, h.1.held.alive⟩, h.1.unstopped⟩, h.2.1, h.2.2⟩

/-- The restored stack is to run on a volume that holds a captured tree. -/
def Ready (k : Conditions) (setup : Setup Tree) (p : Pid) (volume : JString) (bytes : Bytes)
    (w : World Tree) : Prop :=
  w.override = some volume ∧ ∃ archive, Checked k setup p archive bytes w ∧
    (w.volumes volume).isSome = true ∧ Extracted k setup volume bytes w

theorem guarded_ready {volume : JString} {bytes : Bytes} (hname : restoreName volume = true) :
    Guarded k setup p (Ready k setup p volume bytes) := by
  rintro w ⟨ho, archive, h⟩
  exact ⟨h.1.1.held, fun w' hw hc =>
    ⟨by rw [hc.override, ho], archive, (guarded_extracted hname w h).2 w' hw hc⟩⟩

variable [DecidableEq Tree]

theorem verified_readManifest {path : Path} :
    Verified k setup p (Done k p) (readManifest path) (fun m w => Done k p w ∧ Honest setup m w)
      (Done k p) := by
  refine verified_read rfl guarded_done fun w choice r hw h hr => ?_
  simp only [perform] at hr
  split at hr
  · next m hm =>
    rcases (Fallible.read_eq hr).2 with rfl | ⟨message, rfl⟩
    · exact .inl ⟨_, rfl, h, hw.honest path m hm⟩
    · exact .inr ⟨message, rfl, h⟩
  · obtain ⟨-, message, rfl⟩ := Fallible.refuse_eq hr
    exact .inr ⟨message, rfl, h⟩

theorem reads_otherId {image : JString} {id : Option JString} :
    (otherId image id).Calls (fun c => c.reads = true) true := by
  unfold otherId
  split
  · exact .pure _
  · exact .bind (reads_call rfl fun _ => .await _) fun _ => .pure _

theorem reads_incompatible {images : Images} {m : Manifest} :
    (incompatible images m).Calls (fun c => c.reads = true) true := by
  unfold incompatible
  split
  · exact .pure _
  · refine .bind reads_otherId fun cassandra => ?_
    split
    · exact .pure _
    · exact .bind reads_otherId fun _ => .pure _

theorem verified_hash {archive : Path} {sha256 : Option JString} :
    Verified k setup p (fun w => Done k p w ∧ ∃ m, Honest setup m w ∧ m.sha256 = sha256) (hash archive)
      (fun digest w => Done k p w ∧ (some digest = sha256 → ∃ bytes, Checked k setup p archive bytes w))
      (Done k p) := by
  have hguarded : Guarded k setup p fun w => Done k p w ∧ ∃ m, Honest setup m w ∧ m.sha256 = sha256 :=
    fun w h => ⟨h.1.held, fun w' hw hc =>
      have ⟨m, hm, hs⟩ := h.2
      ⟨(guarded_done w h.1).2 w' hw hc, m, hm.calm hc, hs⟩⟩
  refine Triple.conseq (verified_read (Q := fun digest w => Done k p w ∧ (some digest = sha256 →
    ∃ bytes, Checked k setup p archive bytes w)) rfl hguarded fun w choice r _ h hr => ?_)
    (fun _ _ _ h => h) (fun _ _ _ h => h) fun _ _ _ h => h.1
  obtain ⟨hd, m, ⟨file, tree, hmem, -, hsum⟩, hs⟩ := id h
  simp only [perform] at hr
  split at hr
  · next bytes hbytes =>
    rcases (Fallible.read_eq hr).2 with rfl | ⟨message, rfl⟩
    · refine .inl ⟨_, rfl, hd, fun heq => ⟨bytes, hd, hbytes, file, tree, hmem, ?_⟩⟩
      rw [← hs, hsum] at heq
      exact Option.some.inj heq
    · exact .inr ⟨message, rfl, h⟩
  · obtain ⟨-, message, rfl⟩ := Fallible.refuse_eq hr
    exact .inr ⟨message, rfl, h⟩

theorem verified_createVolume {archive : Path} {bytes : Bytes} {time : Int} :
    Verified k setup p (Checked k setup p archive bytes) (createVolume (volumeName time))
      (fun _ w => Checked k setup p archive bytes w ∧ Empty k setup (volumeName time) w) (Done k p) := by
  refine verified_write (f := fun _ w =>
    w.setVolume (volumeName time) ((w.volumes (volumeName time)).getD setup.tar.empty))
    guarded_checked (fun _ _ h => h.1.held) (fun _ _ _ _ hr => await_write hr)
    (fun w choice hw h hallowed => ⟨hw.setVolume .., h.1.held.guarantee rfl fun _ _ => rfl, h.setVolume ..,
      fun hk => ?_⟩) fun w h => h.elim (·.1) (·.1.1)
  have hnone : w.volumes (volumeName time) = none := by simpa [allowed, hk] using hallowed
  refine ⟨by simp [World.setVolume, hnone], fun hr => ?_⟩
  have := (hw.restored (volumeName time) (.inl hr)).2
  simp [hnone] at this

theorem verified_extract {archive : Path} {bytes : Bytes} {time : Int} {image : JString} :
    Verified k setup p (fun w => Checked k setup p archive bytes w ∧ Empty k setup (volumeName time) w)
      (extract (volumeName time) image archive)
      (fun _ w => Checked k setup p archive bytes w ∧ (w.volumes (volumeName time)).isSome = true ∧
        Extracted k setup (volumeName time) bytes w) (Done k p) := by
  have hname := restoreName_volumeName time
  refine triple_call (guarded_empty hname).stable fun w hw ⟨h, he⟩ =>
    ⟨⟨h.1.held, fun hk => ⟨(he hk).1, inUse_of_restoreName hw hname (he hk).2⟩, bytes, h.2⟩,
      fun choice r w' hr _ => ?_⟩
  have hfails (tree : Tree) (message : JString) (hr : r = .error message)
      (hw' : w' = w.setVolume (volumeName time) tree) :
      Inv k setup w' ∧ Guarantee p w w' ∧ Answers (await r : Js Unit)
        (fun _ w => Checked k setup p archive bytes w ∧ (w.volumes (volumeName time)).isSome = true ∧
          Extracted k setup (volumeName time) bytes w) (fun _ => Done k p) w' := by
    subst hr hw'
    exact ⟨hw.setVolume .., h.1.held.guarantee rfl fun _ _ => rfl, .inr ⟨message, rfl, (h.setVolume ..).1⟩⟩
  simp only [perform, h.2.1] at hr
  split at hr
  · next bytes' hbytes _ =>
    obtain rfl : bytes = bytes' := by simpa using hbytes
    split at hr
    · next tree htree =>
      simp only [Option.some.injEq, Prod.mk.injEq] at hr
      obtain ⟨rfl, rfl⟩ := hr
      have hset (t : Tree) : (w.setVolume (volumeName time) t).volumes (volumeName time) = some t := by
        simp [World.setVolume]
      unfold World.extract
      split
      · exact ⟨hw.setVolume .., h.1.held.guarantee rfl fun _ _ => rfl, .inl ⟨(), rfl, h.setVolume ..,
          by simp [hset], fun hk => ⟨tree, hset tree, htree, (he hk).2⟩⟩⟩
      · next hne =>
        exact ⟨hw.setVolume .., h.1.held.guarantee rfl fun _ _ => rfl, .inl ⟨(), rfl, h.setVolume ..,
          by simp [hset], fun hk => absurd (by simp [(he hk).1]) hne⟩⟩
    · simp only [Option.some.injEq, Prod.mk.injEq] at hr
      exact hfails _ _ hr.1.symm hr.2.symm
  · simp only [Option.some.injEq, Prod.mk.injEq] at hr
    exact hfails _ _ hr.1.symm hr.2.symm

theorem verified_writeOverride {archive : Path} {bytes : Bytes} {time : Int} :
    Verified k setup p (fun w => Checked k setup p archive bytes w ∧
        (w.volumes (volumeName time)).isSome = true ∧ Extracted k setup (volumeName time) bytes w)
      (writeOverride (volumeName time)) (fun _ => Ready k setup p (volumeName time) bytes) (Done k p) := by
  have hname := restoreName_volumeName time
  refine verified_write (f := fun _ w => { w with override := some (volumeName time) })
    (guarded_extracted hname) (fun _ _ h => h.1.1.held) (fun _ _ _ _ hr => await_write hr)
    (fun w choice hw ⟨h, hthere, he⟩ _ => ?_) fun w h => h.elim (·.1.1) fun ⟨_, _, h⟩ => h.1.1
  have hrestored : ∀ volume, w.restored = some volume ∨ some (volumeName time) = some volume →
      restoreName volume = true ∧ (w.volumes volume).isSome = true := by
    rintro volume (hr | ho)
    · exact hw.restored volume (.inl hr)
    · obtain rfl := Option.some.inj ho
      exact ⟨hname, hthere⟩
  exact ⟨{ hw with restored := hrestored }, h.1.held.guarantee rfl fun _ _ => rfl, rfl, archive,
    ⟨⟨⟨h.1.held.lock, h.1.held.alive⟩, h.1.unstopped⟩, h.2⟩, hthere, he⟩

theorem verified_upRestored {bytes : Bytes} {time : Int} :
    Verified k setup p (Ready k setup p (volumeName time) bytes) upRestored (fun _ => Done k p)
      (Done k p) := by
  refine verified_write (f := fun _ w => { w with restored := w.override })
    (guarded_ready (restoreName_volumeName time)) (fun w _ ⟨ho, archive, h, _, he⟩ => ⟨h.1.held, fun hk => ?_⟩)
    (fun _ _ _ _ hr => await_write hr) (fun w choice hw ⟨ho, archive, h, _⟩ _ => ?_)
    fun w h => h.elim (fun ⟨_, _, h⟩ => h.1.1) fun h => h
  · obtain ⟨tree, hv, hu, -⟩ := he hk
    exact ⟨volumeName time, bytes, tree, ho, hv, hu, h.2.2⟩
  · exact ⟨{ hw with restored := fun volume hr => hw.restored volume (.inr (hr.elim id id)) },
      h.1.held.guarantee rfl fun _ _ => rfl, ⟨h.1.held.lock, h.1.held.alive⟩, h.1.unstopped⟩

/-- From a manifest that a backup has written, the restore leaves the stack as it was. -/
theorem verified_restoreArchive {images : Images} {archive : Path} {sha256 : Option JString} :
    Verified k setup p (fun w => Done k p w ∧ ∃ m, Honest setup m w ∧ m.sha256 = sha256)
      (restoreArchive images archive sha256) (fun _ => Done k p) (Done k p) := by
  refine Triple.bind verified_hash fun digest => ?_
  refine Triple.bind (triple_throwIf fun _ h => h.1) fun _ => ?_
  refine Triple.conseq (B := fun _ w => ∃ bytes, Checked k setup p archive bytes w)
    (Triple.exists_pre fun bytes => ?_) (fun _ w _ ⟨⟨_, h⟩, hsame⟩ => h (by simpa using hsame))
    (fun _ _ _ h => h) fun _ _ _ h => h
  refine Triple.bind (Triple.conseq (verified_reads (reads_call rfl fun _ => .pure _) guarded_checked)
    (fun _ _ _ h => h) (fun _ _ _ h => h) fun _ _ _ h => h.1) fun time => ?_
  refine Triple.bind verified_createVolume fun _ => ?_
  refine Triple.bind verified_extract fun _ => ?_
  refine Triple.bind verified_writeOverride fun _ => ?_
  exact Triple.bind verified_upRestored fun _ => verified_reads (reads_call rfl fun _ => .await _) guarded_done

theorem verified_localRestore {images : Images} {input : Option Path} :
    Verified k setup p (Done k p) (localRestore images input) (fun _ => Done k p) (Done k p) := by
  cases input with
  | none => exact Triple.throw _ fun _ _ h => h
  | some manifestPath =>
    refine Triple.bind verified_readManifest fun m => ?_
    have hguarded : Guarded k setup p fun w => Done k p w ∧ Honest setup m w :=
      fun w h => ⟨h.1.held, fun w' hw hc => ⟨(guarded_done w h.1).2 w' hw hc, h.2.calm hc⟩⟩
    refine Triple.bind (Triple.conseq (verified_reads reads_incompatible hguarded)
      (fun _ _ _ h => h) (fun _ _ _ h => h) fun _ _ _ h => h.1) fun other => ?_
    refine Triple.bind (triple_throwIf fun _ h => h.1) fun _ => Triple.pre ?_ fun _ _ h => h.1
    split
    · exact Triple.throw _ fun _ _ h => h.1
    · refine Triple.bind (triple_throwIf fun _ h => h.1) fun _ => ?_
      exact Triple.pre verified_restoreArchive fun _ _ ⟨⟨hd, hm⟩, _⟩ => ⟨hd, m, hm, rfl⟩

/-! ## Runs -/

theorem verified_operation {images : Images} {mode : Mode} :
    Verified k setup p (Done k p) (operation images mode) (fun _ => Done k p) (Done k p) := by
  cases mode with
  | localBackup => exact verified_localBackup
  | localRestore input => exact verified_localRestore
  | other => exact Triple.throw _ fun _ _ h => h

/-- A run that is alive. -/
def Alive (p : Pid) (w : World Tree) : Prop := w.life p = .live

theorem stable_alive : (protocol k setup).Stable (machine setup) (allowed k) p (Alive p) := by
  rintro w w' ⟨-, -, ⟨q, hq, hg⟩ | ⟨e, he, -⟩⟩ h
  · rw [Alive, hg.life p (Ne.symm hq), h]
  · cases e with
    | tick | crash =>
      cases he
      exact h
    | write | restart | operate | damage | remove | copy | clear =>
      simp only [machine, env, Option.ite_none_right_eq_some, Option.some.injEq] at he
      obtain ⟨-, rfl⟩ := he
      exact h

theorem verified_makeLock :
    Verified k setup p (Alive p) makeLock (fun _ => Done k p) (fun _ => True) := by
  refine triple_call stable_alive fun w hw h => ⟨trivial, fun choice r w' hr _ => ?_⟩
  simp only [perform] at hr
  split at hr
  · obtain ⟨rfl, message, rfl⟩ := Fallible.refuse_eq hr
    exact ⟨hw, .refl w', .inr ⟨message, rfl, trivial⟩⟩
  · next hlock =>
    split at hr
    · cases hr
      refine ⟨⟨fun q hq => ?_, hw.honest, hw.ofStack, hw.restored, fun _ hl => by cases hl⟩,
        ⟨fun _ _ => rfl, .inr (.inl hlock), fun _ _ => rfl, fun _ => ⟨rfl, rfl, rfl, rfl, rfl, rfl⟩⟩,
        .inl ⟨(), rfl, ⟨rfl, h⟩, fun hk => hw.kept hk hlock⟩⟩
      obtain rfl := Option.some.inj hq
      simp [show w.life p = .live from h]
    · next message _ =>
      cases hr
      exact ⟨hw, .refl _, .inr ⟨message, rfl, trivial⟩⟩

theorem verified_removeLock :
    Verified k setup p (Done k p) removeLock (fun _ _ => True) (fun _ => True) := by
  refine verified_write (f := fun _ w => { w with lock := none }) (B := fun _ => True) guarded_done
    (fun _ _ h => h.held) (fun w choice r w' hr => ?_) (fun w choice hw h _ => ?_) fun _ _ => trivial
  · simp only [perform] at hr
    split at hr
    · exact await_write hr
    · obtain ⟨rfl, message, rfl⟩ := Fallible.refuse_eq hr
      exact .inr ⟨⟨message, rfl⟩, .inl rfl⟩
  · exact ⟨⟨fun q hq => (by cases hq), hw.honest, hw.ofStack, hw.restored, fun hk _ => h.unstopped hk⟩,
      h.held.guarantee rfl fun _ _ => rfl, trivial⟩

/-- A call that reads before the run has the lock. -/
theorem verified_early {α : Type} {c : Call} {next : c.Ret → Js α} (hc : c.reads = true)
    (hpending : ∀ w : World Tree, Pending k setup p c w)
    (hnext : ∀ r, (∃ a, next r = pure a) ∨ ∃ message, next r = fail message) :
    Verified k setup p (Alive p) (Program.make c >>= next) (fun _ => Alive p) (fun _ => True) := by
  refine triple_call stable_alive fun w hw h => ⟨hpending w, fun choice r w' hr _ => ?_⟩
  obtain rfl := perform_reads hc hr
  refine ⟨hw, .refl w', ?_⟩
  rcases hnext r with ⟨a, ha⟩ | ⟨message, hm⟩
  · exact .inl ⟨a, ha, h⟩
  · exact .inr ⟨message, hm, trivial⟩

/-- **Keeping to the lock.** Whatever its arguments are and wherever its calls fail, a run
keeps to the lock. -/
theorem verified_main {mode : Mode} :
    Verified k setup p (Alive p) (main mode) (fun _ _ => True) (fun _ => True) := by
  refine Triple.bind (verified_early rfl (fun _ => trivial) await_cases) fun images => ?_
  refine Triple.bind (verified_early rfl (fun _ => trivial) await_cases) fun _ => ?_
  refine Triple.bind verified_makeLock fun _ => ?_
  exact Triple.tryFinally verified_operation (fun _ => verified_removeLock) (fun _ => verified_removeLock)
    fun _ _ _ h => h

theorem keeping_environment :
    (protocol k setup).Environment (machine setup) (allowed k) program fun _ _ _ => True where
  start p mode w w' hw h := by
    simp only [machine, start, Option.ite_none_right_eq_some, Option.some.injEq] at h
    obtain ⟨-, rfl⟩ := h
    have hw' : Inv k setup { w with life := Function.update w.life p .live } := hw.setLife p (by simp)
    exact ⟨hw', ⟨fun q hq => Function.update_of_ne hq .., .inl rfl, fun _ _ => rfl,
      fun _ => ⟨rfl, rfl, rfl, rfl, rfl, rfl⟩⟩,
      Triple.script verified_main hw' (by simp [Alive]) fun _ _ _ => trivial⟩
  stop p w hw := ⟨hw.setLife p (by simp), fun q hq => Function.update_of_ne hq .., .inl rfl, fun _ _ => rfl,
    fun _ => ⟨rfl, rfl, rfl, rfl, rfl, rfl⟩⟩
  env _ _ _ hw h ha := env_inv hw h ha
  stable _ _ := fun _ _ _ h => h

/-- Runs from an initial machine keep to the lock. -/
theorem keeping {w : World Tree} (hw : Initial w) {s : Runs Tree}
    (h : Reachable (machine setup) program (allowed k) w s) :
    (protocol k setup).Sound (machine setup) (allowed k) (fun _ _ _ => True) s :=
  Protocol.sound keeping_environment hw.inv h

end CartyxInfra.Local
