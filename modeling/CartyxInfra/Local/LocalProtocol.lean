/-
What the runs of `backup.mjs` owe each other: only the run that holds the lock
operates the stack, its volumes and the archives, and only it gives the lock
back.

A run that holds the lock meets only the databases' own moves: a container
that was stopped on purpose stays so, and a volume that nothing runs on stays
as it is.
-/
import CartyxInfra.Local.LocalStack

namespace CartyxInfra.Local

open JString

/-- What the steps of a run are held to. -/
structure Conditions where
  /-- No two restores read the same millisecond: a volume's name is new. -/
  fresh : Bool := false
  /-- Docker does not start a database again. -/
  steady : Bool := false
  /-- `up` succeeds, and nobody but the runs operates the stack or removes the lock. -/
  kept : Bool := false

variable {Tree : Type} {k : Conditions} {setup : Setup Tree} {p q : Pid} {w w' : World Tree}

/-- The steps looked at. -/
def allowed (k : Conditions) (w : World Tree) : Move Pid Call (Choice Tree) (Env Tree) → Bool
  | .act _ (.createVolume name) _ => !k.fresh || (w.volumes name).isNone
  | .act _ .up choice => !k.kept || choice.error.isNone
  | .act .. => true
  | .env (.restart _) => !k.steady
  | .env (.operate _) | .env .clear => !k.kept
  | .env _ => true

/-- No database has been stopped and left so. -/
def Unstopped (w : World Tree) : Prop := ∀ s c, w.containers s = some c → c.stopped = false

/-- The bytes have the checksum of a tree that was captured whole. -/
def Genuine (setup : Setup Tree) (bytes : Bytes) (w : World Tree) : Prop :=
  ∃ file tree, (file, tree) ∈ w.captured ∧ setup.sha256 bytes = setup.sha256 (setup.tar.pack tree)

/-- The manifest has the name and the checksum of what was captured. -/
def Honest (setup : Setup Tree) (m : Manifest) (w : World Tree) : Prop :=
  ∃ file tree, (file, tree) ∈ w.captured ∧ m.file = some file ∧
    m.sha256 = some (setup.sha256 (setup.tar.pack tree))

/-- What holds of the machine at all times. -/
structure Inv (k : Conditions) (setup : Setup Tree) (w : World Tree) : Prop where
  owned : ∀ p, w.lock = some p → w.life p ≠ .unborn
  honest : ∀ path m, w.files path = some (.manifest (some m)) → Honest setup m w
  ofStack : ∀ s c volume, w.containers s = some c → c.details.volume = some volume →
    restoreName volume = false
  restored : ∀ volume, w.restored = some volume ∨ w.override = some volume →
    restoreName volume = true ∧ (w.volumes volume).isSome = true
  kept : k.kept = true → w.lock = none → Unstopped w

/-- The run is alive and has the lock. -/
structure Held (p : Pid) (w : World Tree) : Prop where
  lock : w.lock = some p
  alive : w.life p = .live

/-- The run may give the lock back. -/
structure Done (k : Conditions) (p : Pid) (w : World Tree) : Prop where
  held : Held p w
  unstopped : k.kept = true → Unstopped w

/-- Cassandra is stopped on the volume, and was drained unless Docker has started it since. -/
def Still (k : Conditions) (volume : JString) (w : World Tree) : Prop :=
  ∃ c, w.containers .cassandra = some c ∧ c.details.volume = some volume ∧ c.stopped = true ∧
    c.running = false ∧ (k.steady = true → c.drained = true)

/-- What a run changes. -/
structure Guarantee (p : Pid) (w w' : World Tree) : Prop where
  life : ∀ q, q ≠ p → w'.life q = w.life q
  lock : w'.lock = w.lock ∨ w.lock = none ∨ w.lock = some p
  reading : ∀ q, q ≠ p → w'.reading q = w.reading q
  /-- Without the lock it changes nothing that the lock is for. -/
  frame : w.lock ≠ some p → w'.containers = w.containers ∧ w'.volumes = w.volumes ∧ w'.files = w.files ∧
    w'.override = w.override ∧ w'.restored = w.restored ∧ w'.captured = w.captured

/-- What is true of the world while a call is waited for. -/
def Pending (k : Conditions) (setup : Setup Tree) (p : Pid) : Call → World Tree → Prop
  | .config, _ | .makeOutput, _ | .makeLock, _ => True
  | .startTar volume _ _, w => Held p w ∧ Still k volume w
  | .exitTar _, w => Held p w ∧ ∃ volume, Still k volume w ∧ w.reading p = some ⟨volume, false⟩
  | .extract volume _ archive, w => Held p w ∧
    (k.fresh = true → w.volumes volume = some setup.tar.empty ∧ w.inUse volume = false) ∧
      ∃ bytes, w.files archive = some (.archive bytes) ∧ Genuine setup bytes w
  | .upRestored, w => Held p w ∧ (k.fresh = true → ∃ volume bytes tree, w.override = some volume ∧
      w.volumes volume = some tree ∧ setup.tar.unpack bytes = some tree ∧ Genuine setup bytes w)
  | _, w => Held p w

/-- Runs that keep to the lock. -/
def protocol (k : Conditions) (setup : Setup Tree) : Protocol Pid Call (World Tree) where
  inv := Inv k setup
  guarantee := Guarantee
  pending := Pending k setup

/-! ## What others do under the lock -/

/-- A container after a time in which nobody operated it. -/
structure Container.Later (k : Conditions) (c c' : Container) : Prop where
  id : c'.id = c.id
  details : c'.details = c.details
  stopped : c'.stopped = c.stopped
  still : c.stopped = true → c.running = false → c'.running = false
  drained : k.steady = true → c.drained = true → c'.drained = true

theorem Container.Later.refl (c : Container) : c.Later k c := ⟨rfl, rfl, rfl, fun _ h => h, fun _ h => h⟩

/-- What others do while the run holds the lock. -/
structure Calm (k : Conditions) (p : Pid) (w w' : World Tree) : Prop where
  held : Held p w'
  containers : ∀ s, Option.Rel (Container.Later k) (w.containers s) (w'.containers s)
  volumes : ∀ volume, w.inUse volume = false → w'.volumes volume = w.volumes volume
  there : ∀ volume, (w.volumes volume).isSome = true → (w'.volumes volume).isSome = true
  files : w'.files = w.files
  override : w'.override = w.override
  restored : w'.restored = w.restored
  captured : w'.captured = w.captured
  reading : ∀ volume, w.inUse volume = false → w.reading p = some ⟨volume, false⟩ →
    w'.reading p = some ⟨volume, false⟩

theorem rel_refl (o : Option Container) : Option.Rel (Container.Later k) o o := by
  cases o with
  | none => exact .none
  | some c => exact .some (.refl c)

theorem Held.not_idle (h : Held p w) : w.idle = false := by
  simp [World.idle, h.lock, h.alive]

theorem Guarantee.calm (h : Held p w) (hq : q ≠ p) (hg : Guarantee q w w') : Calm k p w w' := by
  have hne : w.lock ≠ some q := by
    rw [h.lock]
    simpa using Ne.symm hq
  obtain ⟨hcontainers, hvolumes, hfiles, hoverride, hrestored, hcaptured⟩ := hg.frame hne
  have hlock : w'.lock = some p := by
    rcases hg.lock with hsame | hnone | hown
    · rw [hsame, h.lock]
    · rw [h.lock] at hnone
      cases hnone
    · exact absurd hown hne
  refine ⟨⟨hlock, by rw [hg.life p (Ne.symm hq), h.alive]⟩, fun s => ?_, fun volume _ => by rw [hvolumes],
    fun volume hs => by rwa [hvolumes], hfiles, hoverride, hrestored, hcaptured,
    fun volume _ hr => by rwa [hg.reading p (Ne.symm hq)]⟩
  rw [hcontainers]
  exact rel_refl _

theorem rel_map {s t : Service} {f : Container → Container}
    (h : ∀ c, w.containers s = some c → c.Later k (f c)) :
    Option.Rel (Container.Later k) (w.containers t) ((w.mapContainer s f).containers t) := by
  by_cases ht : t = s
  · subst ht
    simp only [World.mapContainer, Function.update_self]
    cases hc : w.containers t with
    | none => exact .none
    | some c => exact .some (h c hc)
  · simp only [World.mapContainer, Function.update_of_ne ht]
    exact rel_refl _

theorem Calm.refl (h : Held p w) : Calm k p w w :=
  ⟨h, fun _ => rel_refl _, fun _ _ => rfl, fun _ hs => hs, rfl, rfl, rfl, rfl, fun _ _ hr => hr⟩

/-- Nobody operates the stack while a live run holds the lock. -/
theorem env_calm {e : Env Tree} (h : Held p w) (he : env e w = some w')
    (ha : allowed k w (.env e) = true) : Calm k p w w' := by
  have hidle := h.not_idle
  cases e with
  | tick ms =>
    cases he
    exact { Calm.refl h with held := ⟨h.lock, h.alive⟩ }
  | write volume tree =>
    simp only [env, Option.ite_none_right_eq_some, Option.some.injEq] at he
    obtain ⟨huse, rfl⟩ := he
    have hne (volume' : JString) (hv : w.inUse volume' = false) : volume' ≠ volume := by
      rintro rfl
      rw [huse] at hv
      cases hv
    refine { Calm.refl h with held := ⟨h.lock, h.alive⟩, volumes := ?_, there := ?_, reading := ?_ }
    · intro volume' hv
      exact Function.update_of_ne (hne volume' hv) ..
    · intro volume' hs
      by_cases heq : volume' = volume
      · subst heq
        simp [World.setVolume]
      · simpa [World.setVolume, heq] using hs
    · intro volume' hv hr
      simp [hr, Reading.tear, hne volume' hv]
  | crash service =>
    cases he
    have hlater (c : Container) : c.Later k c.crash := ⟨rfl, rfl, rfl, fun _ _ => rfl, fun _ hd => hd⟩
    exact { Calm.refl (k := k) h with
      held := ⟨h.lock, h.alive⟩
      containers := fun _ => rel_map fun c _ => hlater c }
  | restart service =>
    simp only [env, Option.ite_none_right_eq_some, Option.some.injEq] at he
    obtain ⟨hdown, rfl⟩ := he
    have hsteady : k.steady = false := by simpa [allowed] using ha
    have hlater (c : Container) (hc : w.containers service = some c) : c.Later k c.restart := by
      simp only [hc, Option.any_some, Bool.and_eq_true, Bool.not_eq_true'] at hdown
      exact ⟨rfl, rfl, rfl, fun hs => absurd hs (by simp [hdown.2]), fun hk => absurd hk (by simp [hsteady])⟩
    exact { Calm.refl (k := k) h with
      held := ⟨h.lock, h.alive⟩
      containers := fun _ => rel_map hlater }
  | operate | damage | remove | copy | clear => simp [env, hidle] at he

/-- An assertion of a run with the lock that only the run itself ends. -/
def Guarded (k : Conditions) (setup : Setup Tree) (p : Pid) (A : World Tree → Prop) : Prop :=
  ∀ w, A w → Held p w ∧ ∀ w', Inv k setup w → Calm k p w w' → A w'

section

variable [DecidableEq Tree] {A B : World Tree → Prop}

theorem Guarded.stable (hA : Guarded k setup p A) :
    (protocol k setup).Stable (machine setup) (allowed k) p A := by
  rintro w w' ⟨hw, -, ⟨q, hq, hg⟩ | ⟨e, he, ha⟩⟩ h
  · exact (hA w h).2 w' hw (hg.calm (hA w h).1 hq)
  · exact (hA w h).2 w' hw (env_calm (hA w h).1 he ha)

end

section

variable {A B : World Tree → Prop}

theorem Guarded.and (hA : Guarded k setup p A) (hB : Guarded k setup p B) :
    Guarded k setup p fun w => A w ∧ B w :=
  fun w h => ⟨(hA w h.1).1, fun w' hw hc => ⟨(hA w h.1).2 w' hw hc, (hB w h.2).2 w' hw hc⟩⟩

theorem Guarded.const (hA : Guarded k setup p A) (c : Prop) : Guarded k setup p fun w => A w ∧ c :=
  fun w h => ⟨(hA w h.1).1, fun w' hw hc => ⟨(hA w h.1).2 w' hw hc, h.2⟩⟩

theorem Guarded.exists {ι : Type} {B : ι → World Tree → Prop} (hB : ∀ i, Guarded k setup p (B i)) :
    Guarded k setup p fun w => ∃ i, B i w :=
  fun w ⟨i, h⟩ => ⟨(hB i w h).1, fun w' hw hc => ⟨i, (hB i w h).2 w' hw hc⟩⟩

theorem Calm.container (hc : Calm k p w w') {s : Service} {c : Container} (h : w.containers s = some c) :
    ∃ c', w'.containers s = some c' ∧ c.Later k c' := by
  have hrel := hc.containers s
  rw [h] at hrel
  generalize w'.containers s = o at hrel
  cases hrel with
  | some hlater => exact ⟨_, rfl, hlater⟩

theorem Calm.unstopped (hc : Calm k p w w') (h : Unstopped w) : Unstopped w' := by
  intro s c' hs
  have hrel := hc.containers s
  rw [hs] at hrel
  generalize ho : w.containers s = o at hrel
  cases hrel with
  | some hlater => rw [hlater.stopped, h s _ ho]

theorem guarded_held : Guarded k setup p (Held p) := fun _ h => ⟨h, fun _ _ hc => hc.held⟩

theorem guarded_done : Guarded k setup p (Done k p) :=
  fun _ h => ⟨h.held, fun _ _ hc => ⟨hc.held, fun hk => hc.unstopped (h.unstopped hk)⟩⟩

/-- What holds of Cassandra's container, and stays so. -/
theorem guarded_container {φ : Container → Prop} (hφ : ∀ c c', c.Later k c' → φ c → φ c') :
    Guarded k setup p fun w => Held p w ∧ ∃ c, w.containers .cassandra = some c ∧ φ c := by
  rintro w ⟨h, c, hc, hφc⟩
  refine ⟨h, fun w' _ hcalm => ⟨hcalm.held, ?_⟩⟩
  obtain ⟨c', hc', hlater⟩ := hcalm.container hc
  exact ⟨c', hc', hφ c c' hlater hφc⟩

theorem guarded_still {volume : JString} : Guarded k setup p fun w => Held p w ∧ Still k volume w := by
  refine guarded_container fun c c' hlater ⟨hvolume, hstopped, hdown, hdrained⟩ => ?_
  exact ⟨by rw [hlater.details, hvolume], by rw [hlater.stopped, hstopped], hlater.still hstopped hdown,
    fun hk => hlater.drained hk (hdrained hk)⟩

/-- A stopped Cassandra leaves its volume alone. -/
theorem Still.unused (h : Still k volume w) (hw : Inv k setup w) : w.inUse volume = false := by
  obtain ⟨c, hc, hvolume, -, hdown, -⟩ := h
  have hstack := hw.ofStack .cassandra c volume hc hvolume
  have hne : w.restored ≠ some volume := by
    intro hr
    rw [(hw.restored volume (.inl hr)).1] at hstack
    cases hstack
  simp [World.inUse, hc, hdown, hne]

theorem guarded_reading {volume : JString} : Guarded k setup p fun w =>
    (Held p w ∧ Still k volume w) ∧ w.reading p = some ⟨volume, false⟩ := by
  rintro w ⟨h, hr⟩
  exact ⟨h.1, fun w' hw hc => ⟨(guarded_still w h).2 w' hw hc, hc.reading volume (h.2.unused hw) hr⟩⟩

theorem Honest.calm (hc : Calm k p w w') {m : Manifest} (h : Honest setup m w) : Honest setup m w' := by
  rwa [Honest, hc.captured]

theorem Genuine.calm (hc : Calm k p w w') {bytes : Bytes} (h : Genuine setup bytes w) :
    Genuine setup bytes w' := by
  rwa [Genuine, hc.captured]

end

/-! ## Steps under the lock -/

theorem Guarantee.refl (w : World Tree) : Guarantee p w w :=
  ⟨fun _ _ => rfl, .inl rfl, fun _ _ => rfl, fun _ => ⟨rfl, rfl, rfl, rfl, rfl, rfl⟩⟩

/-- With the lock a run may change anything but the other runs. -/
theorem Held.guarantee (h : Held p w) (hlife : w'.life = w.life)
    (hreading : ∀ q, q ≠ p → w'.reading q = w.reading q) : Guarantee p w w' :=
  ⟨fun q _ => by rw [hlife], .inr (.inr h.lock), hreading, fun hne => absurd h.lock hne⟩

/-- The containers may change under the lock, but not the volumes they are made with. -/
theorem Inv.containers (hw : Inv k setup w) (h : Held p w) {containers : Service → Option Container}
    (hstack : ∀ s c volume, containers s = some c → c.details.volume = some volume →
      restoreName volume = false) : Inv k setup { w with containers := containers } :=
  ⟨hw.owned, hw.honest, hstack, hw.restored, fun _ hl => absurd (h.lock.symm.trans hl) (by simp)⟩

theorem mapContainer_eq {s t : Service} {f : Container → Container} {c' : Container}
    (h : (w.mapContainer s f).containers t = some c') :
    (t = s ∧ ∃ c, w.containers s = some c ∧ c' = f c) ∨ t ≠ s ∧ w.containers t = some c' := by
  by_cases ht : t = s
  · subst ht
    simp only [World.mapContainer, Function.update_self, Option.map_eq_some_iff] at h
    obtain ⟨c, hc, rfl⟩ := h
    exact .inl ⟨rfl, c, hc, rfl⟩
  · simp only [World.mapContainer, Function.update_of_ne ht] at h
    exact .inr ⟨ht, h⟩

theorem mapContainer_self {s : Service} {f : Container → Container} {c : Container}
    (h : w.containers s = some c) : (w.mapContainer s f).containers s = some (f c) := by
  simp [World.mapContainer, h]

theorem Inv.mapContainer (hw : Inv k setup w) (h : Held p w) {s : Service} {f : Container → Container}
    (hf : ∀ c, (f c).details = c.details) : Inv k setup (w.mapContainer s f) := by
  refine hw.containers h fun t c' volume hc hv => ?_
  rcases mapContainer_eq (w := w) hc with ⟨rfl, c, hs, rfl⟩ | ⟨-, hs⟩
  · exact hw.ofStack t c volume hs (by rwa [hf] at hv)
  · exact hw.ofStack t c' volume hs hv

/-- Files may change as long as the manifests are honest. -/
theorem Inv.setFile (hw : Inv k setup w) {path : Path} {file : Option File}
    (h : ∀ m, file = some (.manifest (some m)) → Honest setup m w) : Inv k setup (w.setFile path file) := by
  refine { hw with honest := fun path' m hm => ?_ }
  by_cases hp : path' = path
  · subst hp
    simp only [World.setFile, Function.update_self] at hm
    exact h m hm
  · simp only [World.setFile, Function.update_of_ne hp] at hm
    exact hw.honest path' m hm

/-- The archive holds what was captured under its name. -/
structure Archived (setup : Setup Tree) (p : Pid) (path : Path) (tree : Tree) (w : World Tree) : Prop where
  held : Held p w
  file : w.files path = some (.archive (setup.tar.pack tree))
  captured : (path.name, tree) ∈ w.captured

theorem guarded_archived {path : Path} {tree : Tree} : Guarded k setup p (Archived setup p path tree) :=
  fun _ h => ⟨h.held, fun _ _ hc => ⟨hc.held, by rw [hc.files, h.file], by rw [hc.captured]; exact h.captured⟩⟩

theorem Inv.capture (hw : Inv k setup w) (file : JString) (tree : Tree) :
    Inv k setup { w with captured := (file, tree) :: w.captured } :=
  { hw with honest := fun path m hm =>
      have ⟨file', tree', hmem, hname, hsum⟩ := hw.honest path m hm
      ⟨file', tree', List.mem_cons_of_mem _ hmem, hname, hsum⟩ }

theorem ofStack_eq {containers : Service → Option Container} (h : ofStack containers = true) :
    ∀ s c volume, containers s = some c → c.details.volume = some volume → restoreName volume = false := by
  intro s c volume hs hv
  simp only [ofStack, Bool.and_eq_true, Option.all_eq_true, Container.ofStack, Bool.not_eq_true'] at h
  cases s with
  | cassandra => exact h.1 c hs volume hv
  | janusgraph => exact h.2 c hs volume hv

/-- A volume may be made or written under the lock. -/
theorem Inv.setVolume (hw : Inv k setup w) (volume : JString) (tree : Tree) :
    Inv k setup (w.setVolume volume tree) := by
  refine { hw with restored := fun volume' h => ⟨(hw.restored volume' h).1, ?_⟩ }
  by_cases heq : volume' = volume
  · subst heq
    simp [World.setVolume]
  · simpa [World.setVolume, heq] using (hw.restored volume' h).2

theorem Inv.setLife (hw : Inv k setup w) (p : Pid) {life : Life} (h : life ≠ .unborn) :
    Inv k setup { w with life := Function.update w.life p life } := by
  refine { hw with owned := fun q hq => ?_ }
  by_cases hp : q = p
  · simpa [hp] using h
  · simpa [hp] using hw.owned q hq

/-! ## What moves by itself -/

theorem env_inv {e : Env Tree} (hw : Inv k setup w) (he : env e w = some w')
    (ha : allowed k w (.env e) = true) : Inv k setup w' := by
  have hmap {s : Service} {f : Container → Container} (hf : ∀ c, (f c).details = c.details)
      (hstopped : ∀ c, (f c).stopped = c.stopped) : Inv k setup (w.mapContainer s f) := by
    refine { hw with ofStack := fun t c' volume hc hv => ?_, kept := fun hk hl t c' hc => ?_ }
    · rcases mapContainer_eq (w := w) hc with ⟨rfl, c, hs, rfl⟩ | ⟨-, hs⟩
      · exact hw.ofStack t c volume hs (by rwa [hf] at hv)
      · exact hw.ofStack t c' volume hs hv
    · rcases mapContainer_eq (w := w) hc with ⟨rfl, c, hs, rfl⟩ | ⟨-, hs⟩
      · rw [hstopped]
        exact hw.kept hk hl t c hs
      · exact hw.kept hk hl t c' hs
  cases e with
  | tick ms =>
    cases he
    exact ⟨hw.owned, hw.honest, hw.ofStack, hw.restored, hw.kept⟩
  | crash service =>
    cases he
    exact hmap (fun _ => rfl) fun _ => rfl
  | write volume tree =>
    simp only [env, Option.ite_none_right_eq_some, Option.some.injEq] at he
    obtain ⟨-, rfl⟩ := he
    have hset := hw.setVolume volume tree
    exact ⟨hset.owned, hset.honest, hset.ofStack, hset.restored, hset.kept⟩
  | restart service =>
    simp only [env, Option.ite_none_right_eq_some, Option.some.injEq] at he
    obtain ⟨-, rfl⟩ := he
    exact hmap (fun _ => rfl) fun _ => rfl
  | operate containers =>
    simp only [env, Option.ite_none_right_eq_some, Option.some.injEq, Bool.and_eq_true] at he
    obtain ⟨⟨-, hstack⟩, rfl⟩ := he
    have hk : k.kept = false := by simpa [allowed] using ha
    exact { hw with ofStack := ofStack_eq hstack, kept := fun hkept => absurd hkept (by simp [hk]) }
  | damage path bytes =>
    simp only [env, Option.ite_none_right_eq_some, Option.some.injEq] at he
    obtain ⟨-, rfl⟩ := he
    exact hw.setFile fun m hm => by cases hm
  | remove path =>
    simp only [env, Option.ite_none_right_eq_some, Option.some.injEq] at he
    obtain ⟨-, rfl⟩ := he
    exact hw.setFile fun m hm => by cases hm
  | copy source target =>
    simp only [env, Option.ite_none_right_eq_some, Option.some.injEq] at he
    obtain ⟨-, rfl⟩ := he
    exact hw.setFile fun m hm => hw.honest source m hm
  | clear =>
    simp only [env, Option.ite_none_right_eq_some, Option.some.injEq] at he
    obtain ⟨-, rfl⟩ := he
    have hk : k.kept = false := by simpa [allowed] using ha
    exact { hw with owned := fun q hq => (by cases hq), kept := fun hkept => absurd hkept (by simp [hk]) }

theorem Initial.inv {w : World Tree} (h : Initial w) : Inv k setup w where
  owned p hp := by simp [h.unlocked] at hp
  honest path m hm := absurd hm (h.bare path _)
  ofStack := ofStack_eq h.ofStack
  restored volume hv := by simp [h.restored] at hv
  kept _ _ := h.started

end CartyxInfra.Local
