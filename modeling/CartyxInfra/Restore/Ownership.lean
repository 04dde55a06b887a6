/-
What the runs of `restore-cluster.mjs` owe each other and everybody else: a
run makes its namespace and changes no other, nor a volume that is not of its
own namespace, nor another's files.

A live run's namespace changes by what the cluster does with it: the claim is
bound, and the loader gets ready on a volume that is empty.
-/
import CartyxInfra.Restore.Compatibility
import CartyxInfra.Restore.Destination

namespace CartyxInfra.Restore

open JString Backup

variable {Tree : Type} {setup : Setup Tree} {p q : Pid} {w w' : World Tree} {space : JString}

/-! ## What a run knows -/

/-- The run goes on. -/
def Alive (p : Pid) (w : World Tree) : Prop := w.life p = .live

/-- The archive has passed the guard, as the run has got it from the bucket. -/
def Approved (setup : Setup Tree) (p : Pid) (archive : Bytes) (w : World Tree) : Prop :=
  ∃ input : Input, (setup.args p).environment = some input.environment ∧
    (setup.args p).manifestKey = some input.manifestKey ∧ input.checkout = (setup.args p).checkout ∧
    (∀ key bytes, input.object key = some bytes → (key, bytes) ∈ w.downloads p) ∧
    Reaches setup.tools input ∧ input.archive setup.tools = some archive

/-- The run's own namespace, as it is in the world. -/
def Within (p : Pid) (space : JString) (φ : World Tree → Space → Prop) (w : World Tree) : Prop :=
  ∃ s, w.spaces space = some s ∧ s.creator = some p ∧ φ w s

/-- The archive in the run's directory. -/
def Stored (setup : Setup Tree) (p : Pid) (space : JString) (archive : Bytes) (w : World Tree) : Prop :=
  w.files ⟨(setup.args p).host, space, .archive⟩ = some ⟨p, archive⟩

/-- Nothing is installed in the namespace. -/
def Vacant (_ : World Tree) (s : Space) : Prop := s.release = none

/-- The loader's Job is gone. -/
def Unloaded (_ : World Tree) (s : Space) : Prop := s.job = false

/-- The databases' Secret has the archive's credentials. -/
def Sealed (setup : Setup Tree) (archive : Bytes) (_ : World Tree) (s : Space) : Prop :=
  ∃ data, s.secrets dataSecret = some data ∧ data.map (·.1) = keys ∧
    ∀ entry ∈ data, setup.tools.member archive (utf16 "credentials/" ++ entry.1) = some entry.2

/-- The claim's volume has the files. -/
def Holds (tree : Tree) (name : JString) (w : World Tree) (s : Space) : Prop :=
  s.claim = some (some name) ∧ ∃ volume, w.volumes name = some volume ∧ volume.tree = tree

/-- The claim's volume is empty. -/
def Clean (setup : Setup Tree) (w : World Tree) (s : Space) : Prop := ∃ name, Holds setup.empty name w s

/-- A loader that is ready has found the volume empty. -/
def Honest (setup : Setup Tree) (w : World Tree) (s : Space) : Prop :=
  s.loader = some .ready → Clean setup w s

/-- The release runs on the volume. -/
def Installed (values : Values) (name : JString) (_ : World Tree) (s : Space) : Prop :=
  s.claim = some (some name) ∧ s.release = some values

/-- What a result tells. -/
def Restored (setup : Setup Tree) (p : Pid) (result : Result) (w : World Tree) : Prop :=
  (setup.args p).environment = some result.environment ∧ (setup.args p).manifestKey = some result.manifestKey ∧
    ∃ archive name, Approved setup p archive w ∧ result.sha256 = some (setup.tools.sha256 archive) ∧
      result.volume = some name ∧ (name, archive) ∈ w.extracted p ∧ (setup.unpack archive).isSome = true ∧
      Within p result.space (fun w s => Sealed setup archive w s ∧
        Installed (setup.values p result.environment) name w s) w

/-! ## The protocol -/

/-- What holds of the world at all times. -/
structure Inv (w : World Tree) : Prop where
  claims : ∀ space s name, w.spaces space = some s → s.claim = some (some name) → w.bound space name = true
  born : ∀ space s p, w.spaces space = some s → s.creator = some p → w.life p ≠ .unborn
  quiet : ∀ p, w.life p = .unborn → w.forwards p = false

/-- What a run changes. -/
structure Guarantee (p : Pid) (w w' : World Tree) : Prop where
  life : ∀ q, q ≠ p → w'.life q = w.life q
  own : ∀ q, q ≠ p →
    w'.downloads q = w.downloads q ∧ w'.extracted q = w.extracted q ∧ w'.forwards q = w.forwards q
  objects : w'.objects = w.objects
  files : ∀ path file, w.files path = some file → file.owner ≠ p → w'.files path = some file
  spaces : ∀ space s, w.spaces space = some s → s.creator ≠ some p → w'.spaces space = some s
  made : ∀ space s, w.spaces space = none → w'.spaces space = some s → s.creator = some p
  volumes : ∀ name, w'.volumes name = w.volumes name ∨
    ∃ space s, w.bound space name = true ∧ w.spaces space = some s ∧ s.creator = some p

/-- What is true of the world while a call is waited for. -/
def Pending (setup : Setup Tree) (p : Pid) : Call → World Tree → Prop
  | .getSecret space name, _ => name = backupSecret ∧ (setup.args p).environment.map Namespace.text = some space
  | .createNamespace _, w => ∃ archive, Approved setup p archive w
  | .createSecret space _, w | .createClaim space, w | .createJob space _, w | .waitReady space, w
  | .deleteJob space, w | .portForward space, w | .verify _ space _, w | .getClaim space, w =>
    Within p space (fun _ _ => True) w
  | .extract space, w => ∃ archive, Approved setup p archive w ∧ Stored setup p space archive w ∧
    Within p space (fun w s => (Vacant w s ∧ Clean setup w s) ∧ Sealed setup archive w s) w
  | .helm space environment, w => (setup.args p).environment = some environment ∧
    ∃ archive tree name, Approved setup p archive w ∧ setup.unpack archive = some tree ∧
      (name, archive) ∈ w.extracted p ∧
      Within p space (fun w s => ((Vacant w s ∧ Holds tree name w s) ∧ Sealed setup archive w s) ∧
        Unloaded w s) w
  | .writeResult result, w => Restored setup p result w
  | _, _ => True

/-- Runs that keep to their own. -/
def protocol (setup : Setup Tree) : Protocol Pid Call (World Tree) where
  inv := Inv
  guarantee := Guarantee
  pending := Pending setup

/-! ## What others do to a run's own -/

/-- A run's namespace after some time, in a world. -/
structure Space.Later (setup : Setup Tree) (w' : World Tree) (s s' : Space) : Prop where
  creator : s'.creator = s.creator
  secrets : s'.secrets = s.secrets
  release : s'.release = s.release
  claim : ∀ name, s.claim = some (some name) → s'.claim = some (some name)
  unloaded : s.job = false → s'.job = false
  ready : s'.loader = some .ready → s.loader = some .ready ∨ Clean setup w' s'

theorem Space.Later.refl (s : Space) : s.Later setup w' s :=
  ⟨rfl, rfl, rfl, fun _ h => h, fun h => h, fun h => .inl h⟩

/-- What others do while the run is alive. -/
structure Calm (setup : Setup Tree) (p : Pid) (w w' : World Tree) : Prop where
  alive : Alive p w'
  downloads : w'.downloads p = w.downloads p
  extracted : w'.extracted p = w.extracted p
  forward : w.forwards p = false → w'.forwards p = false
  files : ∀ path file, w.files path = some file → file.owner = p → w'.files path = some file
  spaces : ∀ space s, w.spaces space = some s → s.creator = some p →
    ∃ s', w'.spaces space = some s' ∧ s.Later setup w' s'
  volumes : ∀ space s name, w.spaces space = some s → s.creator = some p → s.claim = some (some name) →
    s.release = none → w'.volumes name = w.volumes name

theorem bound_eq {name : JString} {volume : Volume Tree} (h : w.bound space name = true)
    (hv : w.volumes name = some volume) : volume.claimRef = some space := by
  simpa [World.bound, hv] using h

/-- A volume is bound to one claim. -/
theorem bound_unique {name other : JString} (h : w.bound space name = true) (h' : w.bound other name = true) :
    space = other := by
  obtain ⟨volume, hv, -⟩ := (Option.any_eq_true ..).1 h
  exact Option.some.inj ((bound_eq h hv).symm.trans (bound_eq h' hv))

theorem Guarantee.calm (h : Alive p w) (hw : Inv w) (hq : q ≠ p) (hg : Guarantee q w w') :
    Calm setup p w w' := by
  obtain ⟨hdownloads, hextracted, hforwards⟩ := hg.own p (Ne.symm hq)
  have hne {s : Space} (hs : s.creator = some p) : s.creator ≠ some q := by
    rw [hs]
    simpa using Ne.symm hq
  refine ⟨(hg.life p (Ne.symm hq)).trans h, hdownloads, hextracted, fun hf => hforwards.trans hf,
    fun path file hf ho => hg.files path file hf (by rw [ho]; exact Ne.symm hq),
    fun space s hs hc => ⟨s, hg.spaces space s hs (hne hc), .refl s⟩, fun space s name hs hc hclaim _ => ?_⟩
  rcases hg.volumes name with hsame | ⟨other, t, hbound, ht, hcreator⟩
  · exact hsame
  · obtain rfl := bound_unique (hw.claims space s name hs hclaim) hbound
    obtain rfl := Option.some.inj (hs.symm.trans ht)
    exact absurd hcreator (hne hc)

theorem setSpace_self {o : Option Space} : (w.setSpace space o).spaces space = o := by
  simp [World.setSpace]

theorem setSpace_ne {other : JString} {o : Option Space} (h : other ≠ space) :
    (w.setSpace space o).spaces other = w.spaces other := by
  simp [World.setSpace, h]

/-- A namespace changes in a way that a live run may see of its own. -/
theorem Calm.setSpace (h : Alive p w) {o : Option Space} (ho : ∀ s, w.spaces space = some s →
    s.creator = some p → ∃ s', o = some s' ∧ s.Later setup (w.setSpace space o) s') :
    Calm setup p w (w.setSpace space o) := by
  refine ⟨h, rfl, rfl, fun hf => hf, fun _ _ hf _ => hf, fun other s hs hc => ?_, fun _ _ _ _ _ _ _ => rfl⟩
  by_cases heq : other = space
  · subst heq
    obtain ⟨s', hs', hlater⟩ := ho s hs hc
    exact ⟨s', by rw [setSpace_self, hs'], hlater⟩
  · exact ⟨s, by rw [setSpace_ne heq, hs], .refl s⟩

/-- A volume changes that no live run's namespace relies on. -/
theorem Calm.setVolume (h : Alive p w) {name : JString} {volume : Volume Tree}
    (hfree : ∀ space s, w.spaces space = some s → s.creator = some p → s.claim = some (some name) →
      s.release ≠ none) : Calm setup p w (w.setVolume name volume) := by
  refine ⟨h, rfl, rfl, fun hf => hf, fun _ _ hf _ => hf, fun _ s hs _ => ⟨s, hs, .refl s⟩,
    fun space s other hs hc hclaim hr => ?_⟩
  have hne : other ≠ name := by
    rintro rfl
    exact hfree space s hs hc hclaim hr
  exact Function.update_of_ne hne ..

/-- Nothing that a live run relies on changes. -/
theorem Calm.of_eq (h : Alive p w') (hdownloads : w'.downloads = w.downloads)
    (hextracted : w'.extracted = w.extracted) (hforward : w.forwards p = false → w'.forwards p = false)
    (hfiles : ∀ path file, w.files path = some file → file.owner = p → w'.files path = some file)
    (hspaces : w'.spaces = w.spaces) (hvolumes : w'.volumes = w.volumes) : Calm setup p w w' :=
  ⟨h, by rw [hdownloads], by rw [hextracted], hforward, hfiles,
    fun _ s hs _ => ⟨s, by rw [hspaces, hs], .refl s⟩, fun _ _ _ _ _ _ _ => by rw [hvolumes]⟩

/-! ## What moves by itself -/

theorem Inv.setSpace (hw : Inv w) {o : Option Space}
    (ho : ∀ s, o = some s → (∀ name, s.claim = some (some name) → w.bound space name = true) ∧
      ∀ p, s.creator = some p → w.life p ≠ .unborn) : Inv (w.setSpace space o) := by
  refine ⟨fun other s name hs hclaim => ?_, fun other s p hs hc => ?_, hw.quiet⟩
  · by_cases heq : other = space
    · subst heq
      rw [setSpace_self] at hs
      exact (ho s hs).1 name hclaim
    · rw [setSpace_ne heq] at hs
      exact hw.claims other s name hs hclaim
  · by_cases heq : other = space
    · subst heq
      rw [setSpace_self] at hs
      exact (ho s hs).2 p hc
    · rw [setSpace_ne heq] at hs
      exact hw.born other s p hs hc

theorem Inv.setVolume (hw : Inv w) {name : JString} {volume : Volume Tree}
    (h : ∀ space s, w.spaces space = some s → s.claim = some (some name) → volume.claimRef = some space) :
    Inv (w.setVolume name volume) := by
  refine { hw with claims := fun space s other hs hclaim => ?_ }
  by_cases heq : other = name
  · subst heq
    simp [World.bound, World.setVolume, h space s hs hclaim]
  · have hbound := hw.claims space s other hs hclaim
    simpa [World.bound, World.setVolume, heq] using hbound

/-- A volume that is bound stays so when its files change. -/
theorem Inv.setTree (hw : Inv w) {name : JString} {volume : Volume Tree} (hv : w.volumes name = some volume)
    (tree : Tree) : Inv (w.setVolume name { volume with tree := tree }) := by
  refine hw.setVolume fun space s hs hclaim => ?_
  have hbound := bound_eq (hw.claims space s name hs hclaim) hv
  exact hbound

/-- Nothing is bound to a free volume. -/
theorem Inv.free (hw : Inv w) {name : JString} {volume : Volume Tree} (hv : w.volumes name = some volume)
    (hfree : volume.claimRef = none) {s : Space} (hs : w.spaces space = some s) :
    s.claim ≠ some (some name) := by
  intro hclaim
  have hbound := bound_eq (hw.claims space s name hs hclaim) hv
  rw [hfree] at hbound
  cases hbound

/-- The claim of a namespace is bound to a volume that was free. -/
theorem env_bind {name : JString} {s : Space} {volume : Volume Tree} (hw : Inv w)
    (hs : w.spaces space = some s) (hv : w.volumes name = some volume) (hclaim : s.claim = some none)
    (hfree : volume.claimRef = none)
    (hw' : w' = (w.setVolume name { volume with claimRef := some space }).setSpace space
      (some { s with claim := some (some name) })) :
    Inv w' ∧ (Alive p w → Calm setup p w w') := by
  subst hw'
  have hvolume : Inv (w.setVolume name { volume with claimRef := some space }) :=
    hw.setVolume fun other t ht hc => absurd hc (hw.free hv hfree ht)
  refine ⟨hvolume.setSpace fun t ht => ?_, fun h => ?_⟩
  · cases ht
    refine ⟨fun other hother => ?_, fun q hq => hw.born space s q hs hq⟩
    cases hother
    simp [World.bound, World.setVolume]
  · refine ⟨h, rfl, rfl, fun hf => hf, fun _ _ hf _ => hf, fun other t ht hc => ?_,
    fun other t n ht hc hn _ => ?_⟩
    · by_cases heq : other = space
      · subst heq
        obtain rfl := Option.some.inj (hs.symm.trans ht)
        refine ⟨_, setSpace_self, ⟨rfl, rfl, rfl, fun n hn => ?_, fun hl => hl, fun hr => .inl hr⟩⟩
        rw [hclaim] at hn
        cases hn
      · exact ⟨t, by rw [setSpace_ne heq]; exact ht, .refl t⟩
    · have hne : n ≠ name := by
        rintro rfl
        exact hw.free hv hfree ht hn
      exact Function.update_of_ne hne ..

/-- A loader that ends, or is removed, does not get ready. -/
theorem env_stopped {f : Space → Option Loader} (hw : Inv w) (hf : ∀ s, f s ≠ some .ready) :
    Inv (w.mapSpace space fun s => { s with loader := f s }) ∧
      (Alive p w → Calm setup p w (w.mapSpace space fun s => { s with loader := f s })) := by
  refine ⟨hw.setSpace fun t ht => ?_, fun h => .setSpace h fun t ht _ => ?_⟩
  · obtain ⟨s, hs, rfl⟩ := Option.map_eq_some_iff.1 ht
    exact ⟨fun name hn => hw.claims space s name hs hn, fun q hq => hw.born space s q hs hq⟩
  · exact ⟨{ t with loader := f t }, by rw [ht]; rfl, rfl, rfl, rfl, fun _ hn => hn, fun hj => hj,
      fun hr => absurd hr (hf t)⟩

section

variable [DecidableEq Tree]

/-- The loader gets ready on an empty volume only. -/
theorem start_ready {volume : Volume Tree} (h : Loader.start setup volume = .ready) :
    volume.tree = setup.empty := by
  unfold Loader.start at h
  split at h
  · assumption
  · cases h

theorem env_schedule {s : Space} {volume : Volume Tree} (hw : Inv w) (hs : w.spaces space = some s)
    (hv : (s.claim.bind fun claim => claim.bind w.volumes) = some volume)
    (hw' : w' = w.setSpace space (some { s with loader := some (.start setup volume) })) :
    Inv w' ∧ (Alive p w → Calm setup p w w') := by
  subst hw'
  refine ⟨hw.setSpace fun t ht => ?_, fun h => .setSpace h fun t ht _ => ?_⟩
  · cases ht
    exact ⟨fun name hn => hw.claims space s name hs hn, fun q hq => hw.born space s q hs hq⟩
  · obtain rfl := Option.some.inj (hs.symm.trans ht)
    refine ⟨_, rfl, rfl, rfl, rfl, fun _ hn => hn, fun hj => hj, fun hr => .inr ?_⟩
    obtain ⟨claim, hclaim, hvolume⟩ := Option.bind_eq_some_iff.1 hv
    obtain ⟨name, rfl, hvolume⟩ := Option.bind_eq_some_iff.1 hvolume
    exact ⟨name, hclaim, volume, hvolume, start_ready (Option.some.inj hr)⟩

theorem env_sound {e : Env Tree} (hw : Inv w) (he : env setup e w = some w') :
    Inv w' ∧ (Alive p w → Calm setup p w w') := by
  cases e with
  | tick | publish =>
    cases he
    exact ⟨⟨hw.claims, hw.born, hw.quiet⟩,
      fun h => .of_eq h rfl rfl (fun hf => hf) (fun _ _ hf _ => hf) rfl rfl⟩
  | provision name tree =>
    simp only [env] at he
    split at he
    · next hnone =>
      cases he
      have hfree (other : JString) (s : Space) (hs : w.spaces other = some s) :
          s.claim ≠ some (some name) := by
        intro hclaim
        have hbound := hw.claims other s name hs hclaim
        simp [World.bound, hnone] at hbound
      exact ⟨hw.setVolume fun other s hs hc => absurd hc (hfree other s hs),
        fun h => .setVolume h fun other s hs _ hc => absurd hc (hfree other s hs)⟩
    · cases he
  | bind space name =>
    simp only [env] at he
    split at he
    · next s volume hs hv =>
      split at he
      · next hfree => exact env_bind hw hs hv hfree.1 hfree.2 (Option.some.inj he).symm
      · cases he
    · cases he
  | schedule space =>
    simp only [env] at he
    split at he
    · next s hs =>
      split at he
      · next volume _ hv => exact env_schedule hw hs hv (Option.some.inj he).symm
      · cases he
    · cases he
  | finish space =>
    cases he
    refine env_stopped hw fun s hready => ?_
    obtain ⟨_, -, hl⟩ := Option.map_eq_some_iff.1 hready
    cases hl
  | collect space =>
    cases he
    exact env_stopped hw fun s hready => by cases hready
  | write name tree =>
    simp only [env] at he
    split at he
    · next volume hv =>
      split at he
      · next hwritten =>
        cases he
        refine ⟨hw.setTree hv tree, fun h => .setVolume h fun other s hs hc hclaim hr => ?_⟩
        have hbound := bound_eq (hw.claims other s name hs hclaim) hv
        simp [World.written, hbound, hs, hc, hr] at hwritten
      · cases he
    · cases he
  | operate space s =>
    simp only [env, Option.ite_none_right_eq_some, Option.some.injEq, Bool.and_eq_true] at he
    obtain ⟨⟨hidle, hforeign⟩, rfl⟩ := he
    refine ⟨hw.setSpace fun t ht => ?_, fun h => .setSpace h fun t ht hc => ?_⟩
    · subst ht
      simp only [Option.all_some, World.foreign, Bool.and_eq_true] at hforeign
      refine ⟨fun name hn => by simpa [hn] using hforeign.2, fun q hq => ?_⟩
      rw [hq] at hforeign
      cases hforeign.1
    · have halive : w.life p = .live := h
      simp [ht, World.idle, hc, halive] at hidle
  | clean path =>
    simp only [env, Option.ite_none_right_eq_some, Option.some.injEq] at he
    obtain ⟨hdead, rfl⟩ := he
    refine ⟨⟨hw.claims, hw.born, hw.quiet⟩,
      fun h => .of_eq h rfl rfl (fun hf => hf) (fun other file hf ho => ?_)
      rfl rfl⟩
    have hne : other ≠ path := by
      rintro rfl
      have halive : w.life p = .live := h
      simp [hf, ho, halive] at hdead
    exact (Function.update_of_ne hne ..).trans hf
  | disconnect q =>
    cases he
    have hquiet (t : Pid) (ht : w.forwards t = false) : (w.setForward q false).forwards t = false := by
      by_cases heq : t = q <;> simp [World.setForward, heq, ht]
    exact ⟨⟨hw.claims, hw.born, fun t ht => hquiet t (hw.quiet t ht)⟩,
      fun h => .of_eq h rfl rfl (hquiet p) (fun _ _ hf _ => hf) rfl rfl⟩

end

theorem Initial.inv (h : Initial w) : Inv w where
  claims := h.claims
  born space s p hs hc := by
    rw [h.spaces space s hs] at hc
    cases hc
  quiet p _ := h.quiet p

/-! ## Assertions that last -/

/-- An assertion that nobody but the live run itself ends. -/
def Kept (setup : Setup Tree) (p : Pid) (B : World Tree → Prop) : Prop :=
  ∀ w w', Calm setup p w w' → B w → B w'

/-- The same of the run's own namespace. -/
def Lasting (setup : Setup Tree) (p : Pid) (space : JString) (φ : World Tree → Space → Prop) : Prop :=
  ∀ w w' s s', Calm setup p w w' → w.spaces space = some s → s.creator = some p → s.Later setup w' s' →
    φ w s → φ w' s'

section

variable {A B : World Tree → Prop} {φ ψ : World Tree → Space → Prop} {archive : Bytes}

theorem Kept.const (c : Prop) : Kept setup p fun _ => c := fun _ _ _ h => h

theorem Kept.and (hA : Kept setup p A) (hB : Kept setup p B) : Kept setup p fun w => A w ∧ B w :=
  fun w w' hc h => ⟨hA w w' hc h.1, hB w w' hc h.2⟩

theorem Kept.exists {ι : Type} {C : ι → World Tree → Prop} (hC : ∀ i, Kept setup p (C i)) :
    Kept setup p fun w => ∃ i, C i w :=
  fun w w' hc ⟨i, h⟩ => ⟨i, hC i w w' hc h⟩

theorem kept_downloads {entry : JString × Bytes} : Kept setup p fun w => entry ∈ w.downloads p := by
  intro w w' hc h
  rwa [hc.downloads]

theorem kept_extracted {entry : JString × Bytes} : Kept setup p fun w => entry ∈ w.extracted p := by
  intro w w' hc h
  rwa [hc.extracted]

theorem kept_approved : Kept setup p (Approved setup p archive) := by
  rintro w w' hc ⟨input, henv, hkey, hcheckout, hobjects, h⟩
  exact ⟨input, henv, hkey, hcheckout, fun key bytes hb => by rw [hc.downloads]; exact hobjects key bytes hb, h⟩

theorem kept_stored : Kept setup p (Stored setup p space archive) :=
  fun _ _ hc h => hc.files _ _ h rfl

theorem kept_within (hφ : Lasting setup p space φ) : Kept setup p (Within p space φ) := by
  rintro w w' hc ⟨s, hs, hcreator, h⟩
  obtain ⟨s', hs', hlater⟩ := hc.spaces space s hs hcreator
  exact ⟨s', hs', hlater.creator.trans hcreator, hφ w w' s s' hc hs hcreator hlater h⟩

theorem Lasting.and (hφ : Lasting setup p space φ) (hψ : Lasting setup p space ψ) :
    Lasting setup p space fun w s => φ w s ∧ ψ w s :=
  fun w w' s s' hc hs hp hl h => ⟨hφ w w' s s' hc hs hp hl h.1, hψ w w' s s' hc hs hp hl h.2⟩

theorem lasting_vacant : Lasting setup p space Vacant := fun _ _ _ _ _ _ _ hl h => hl.release.trans h

theorem lasting_unloaded : Lasting setup p space Unloaded := fun _ _ _ _ _ _ _ hl h => hl.unloaded h

theorem lasting_sealed : Lasting setup p space (Sealed setup archive) := by
  rintro w w' s s' - - - hl ⟨data, hdata, h⟩
  exact ⟨data, by rw [hl.secrets, hdata], h⟩

theorem lasting_installed {values : Values} {name : JString} : Lasting setup p space (Installed values name) :=
  fun _ _ _ _ _ _ _ hl h => ⟨hl.claim name h.1, hl.release.trans h.2⟩

/-- The volume of a namespace that nothing is installed in stays as it is. -/
theorem lasting_holds {tree : Tree} {name : JString} :
    Lasting setup p space fun w s => Vacant w s ∧ Holds tree name w s := by
  rintro w w' s s' hc hs hp hl ⟨hr, hclaim, volume, hv, ht⟩
  exact ⟨lasting_vacant w w' s s' hc hs hp hl hr, hl.claim name hclaim, volume,
    (hc.volumes space s name hs hp hclaim hr).trans hv, ht⟩

theorem lasting_clean : Lasting setup p space fun w s => Vacant w s ∧ Clean setup w s := by
  rintro w w' s s' hc hs hp hl ⟨hr, name, h⟩
  obtain ⟨hr', h'⟩ := lasting_holds w w' s s' hc hs hp hl ⟨hr, h⟩
  exact ⟨hr', name, h'⟩

theorem lasting_honest : Lasting setup p space fun w s => Vacant w s ∧ Honest setup w s := by
  rintro w w' s s' hc hs hp hl ⟨hr, h⟩
  refine ⟨lasting_vacant w w' s s' hc hs hp hl hr, fun hready => ?_⟩
  rcases hl.ready hready with hready' | hclean
  · exact (lasting_clean w w' s s' hc hs hp hl ⟨hr, h hready'⟩).2
  · exact hclean

end

end CartyxInfra.Restore
