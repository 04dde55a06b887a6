/-
Every run of `backup.mjs` keeps to the lock: each call's part, and from these
the backup, the restore and the run around them.
-/
import CartyxInfra.Local.LocalProtocol

namespace CartyxInfra.Local

open JString

variable {Tree : Type} {k : Conditions} {setup : Setup Tree} {p q : Pid} {w w' : World Tree} {α β : Type}

/-- Cassandra's container, as the run has found it. -/
def Has (p : Pid) (φ : Container → Prop) (w : World Tree) : Prop :=
  Held p w ∧ ∃ c, w.containers .cassandra = some c ∧ φ c

/-- Drained, unless Docker has started it since. -/
def Container.Drained (k : Conditions) (volume : JString) (c : Container) : Prop :=
  c.details.volume = some volume ∧ (k.steady = true → c.drained = true)

theorem guarded_volume {volume : JString} :
    Guarded k setup p (Has p fun c => c.details.volume = some volume) :=
  guarded_container fun _ _ hlater hv => by rw [hlater.details, hv]

theorem guarded_drained {volume : JString} : Guarded k setup p (Has p (Container.Drained k volume)) :=
  guarded_container fun _ _ hlater hd => ⟨by rw [hlater.details, hd.1], fun hk => hlater.drained hk (hd.2 hk)⟩

theorem guarded_id {id : JString} : Guarded k setup p fun w => Done k p w ∧ Has p (fun c => c.id = id) w :=
  guarded_done.and (guarded_container fun _ _ hlater hid => by rw [hlater.id, hid])

theorem guarded_details {details : Details} :
    Guarded k setup p fun w => Done k p w ∧ Has p (fun c => c.details = details) w :=
  guarded_done.and (guarded_container fun _ _ hlater hd => by rw [hlater.details, hd])

/-! ## Verified programs -/

variable [DecidableEq Tree]

/-- A program that keeps to the lock, with what it needs and leaves. -/
abbrev Verified (k : Conditions) (setup : Setup Tree) (p : Pid) (A : World Tree → Prop) (m : Js α)
    (Q : α → World Tree → Prop) (E : World Tree → Prop) : Prop :=
  Triple (protocol k setup) (machine setup) (allowed k) p (fun _ => A) m (fun a _ => Q a) fun _ _ => E

theorem triple_call {c : Call} {next : c.Ret → Js α} {A : World Tree → Prop} {Q : α → World Tree → Prop}
    {E : World Tree → Prop} (hA : (protocol k setup).Stable (machine setup) (allowed k) p A)
    (h : ∀ w, Inv k setup w → A w → Pending k setup p c w ∧ ∀ choice r w',
      perform setup p c choice w = some (r, w') → allowed k w (.act p c choice) = true →
        Inv k setup w' ∧ Guarantee p w w' ∧ Answers (next r) Q (fun _ => E) w') :
    Verified k setup p A (Program.make c >>= next) Q E :=
  Triple.answer (fun _ => hA) fun _ => h

theorem triple_throwIf {condition : Bool} {message : JString} {A E : World Tree → Prop}
    (hE : ∀ w, A w → E w) :
    Verified k setup p A (throwIf condition message) (fun _ w => A w ∧ condition = false) E :=
  Triple.throwIf fun _ => hE

/-! ## Calls that only read -/

/-- A call that leaves the machine as it is. -/
def Call.reads : Call → Bool
  | .config | .makeOutput | .now | .ps _ | .inspect _ | .imageId _ | .hash _ | .readManifest _
  | .smokeVerify => true
  | _ => false

theorem perform_reads {c : Call} {choice : Choice Tree} {r : c.Ret} (hc : c.reads = true)
    (h : perform setup p c choice w = some (r, w')) : w' = w := by
  cases c with
  | config | makeOutput | ps | imageId | smokeVerify =>
    simp only [perform] at h
    exact (Fallible.read_eq h).1
  | now =>
    cases h
    rfl
  | inspect | hash | readManifest =>
    simp only [perform] at h
    split at h
    · exact (Fallible.read_eq h).1
    · exact (Fallible.refuse_eq h).1
  | _ => cases hc

/-- A program that only reads keeps what the run relies on. -/
theorem verified_reads {m : Js α} (hm : m.Calls (fun c => c.reads = true) true) {A : World Tree → Prop}
    (hA : Guarded k setup p A) : Verified k setup p A m (fun _ => A) A := by
  refine Triple.calls hm (fun _ => hA.stable) (by simp) fun c _ w hc hw ha => ⟨?_, fun choice r w' hr _ => ?_⟩
  · have h := (hA w ha).1
    cases c with
    | config | makeOutput => exact trivial
    | now | ps | inspect | imageId | hash | readManifest | smokeVerify => exact h
    | _ => cases hc
  · obtain rfl := perform_reads hc hr
    exact ⟨hw, .refl w', ha⟩

theorem reads_call {c : Call} {next : c.Ret → Js α} (hc : c.reads = true)
    (hnext : ∀ r, (next r).Calls (fun c => c.reads = true) true) :
    (Program.make c >>= next).Calls (fun c => c.reads = true) true :=
  .bind (.make hc) hnext

/-- A call that reads, whose answer says something. -/
theorem verified_read {c : Call} {next : c.Ret → Js α} {A : World Tree → Prop} {Q : α → World Tree → Prop}
    (hc : c.reads = true) (hA : Guarded k setup p A)
    (h : ∀ w choice r, Inv k setup w → A w → perform setup p c choice w = some (r, w) →
      Answers (next r) Q (fun _ => A) w) :
    Verified k setup p A (Program.make c >>= next) Q A := by
  refine triple_call hA.stable fun w hw ha => ⟨?_, fun choice r w' hr _ => ?_⟩
  · have hheld := (hA w ha).1
    cases c with
    | config | makeOutput => exact trivial
    | now | ps | inspect | imageId | hash | readManifest | smokeVerify => exact hheld
    | _ => cases hc
  · obtain rfl := perform_reads hc hr
    exact ⟨hw, .refl w', h w' choice r hw ha hr⟩

/-- A write of the run with the lock, which takes effect or not. -/
theorem verified_write {c : Call} {next : c.Ret → Js Unit} {A B E : World Tree → Prop}
    {f : Choice Tree → World Tree → World Tree} (hA : Guarded k setup p A)
    (hpending : ∀ w, Inv k setup w → A w → Pending k setup p c w)
    (hperform : ∀ w choice r w', perform setup p c choice w = some (r, w') →
      (next r = pure () ∧ w' = f choice w) ∨
        (∃ message, next r = fail message) ∧ (w' = w ∨ w' = f choice w))
    (heffect : ∀ w choice, Inv k setup w → A w → allowed k w (.act p c choice) = true →
      Inv k setup (f choice w) ∧ Guarantee p w (f choice w) ∧ B (f choice w))
    (hE : ∀ w, A w ∨ B w → E w) :
    Verified k setup p A (Program.make c >>= next) (fun _ => B) E := by
  refine triple_call hA.stable fun w hw ha => ⟨hpending w hw ha, fun choice r w' hr hallowed => ?_⟩
  obtain ⟨hinv, hg, hb⟩ := heffect w choice hw ha hallowed
  rcases hperform w choice r w' hr with ⟨hnext, rfl⟩ | ⟨⟨message, hnext⟩, rfl | rfl⟩
  · exact ⟨hinv, hg, .inl ⟨(), hnext, hb⟩⟩
  · exact ⟨hw, .refl _, .inr ⟨message, hnext, hE _ (.inl ha)⟩⟩
  · exact ⟨hinv, hg, .inr ⟨message, hnext, hE _ (.inr hb)⟩⟩

/-! ## `local-backup` -/

/-- A command that changes one container. -/
theorem verified_mapContainer {c : Call} {next : c.Ret → Js Unit} {s : Service}
    {f : Container → Container} {A B : World Tree → Prop} (hA : Guarded k setup p A)
    (hpending : ∀ w, Held p w → Pending k setup p c w) (hf : ∀ c, (f c).details = c.details)
    (hperform : ∀ w choice r w', perform setup p c choice w = some (r, w') →
      (next r = pure () ∧ w' = w.mapContainer s f) ∨
        (∃ message, next r = fail message) ∧ (w' = w ∨ w' = w.mapContainer s f))
    (hB : ∀ w, A w → B (w.mapContainer s f)) (hheld : ∀ w, B w → Held p w) :
    Verified k setup p A (Program.make c >>= next) (fun _ => B) (Held p) :=
  verified_write hA (fun w _ ha => hpending w (hA w ha).1) hperform
    (fun w _ hw ha _ => ⟨hw.mapContainer (hA w ha).1 hf, (hA w ha).1.guarantee rfl fun _ _ => rfl, hB w ha⟩)
    fun w h => h.elim (fun ha => (hA w ha).1) (hheld w)

theorem verified_stopGraph {volume : JString} :
    Verified k setup p (Has p fun c => c.details.volume = some volume) (stop .janusgraph 60)
      (fun _ => Has p fun c => c.details.volume = some volume) (Held p) :=
  verified_mapContainer (s := .janusgraph) (f := .stop) guarded_volume (fun _ h => h) (fun _ => rfl)
    (fun _ _ _ _ hr => await_write hr)
    (fun _ ⟨h, c, hc, hv⟩ => ⟨⟨h.lock, h.alive⟩, c, by simpa [World.mapContainer] using hc, hv⟩)
    fun _ h => h.1

theorem verified_drain {volume : JString} :
    Verified k setup p (Has p fun c => c.details.volume = some volume) drain
      (fun _ => Has p (Container.Drained k volume)) (Held p) := by
  refine verified_mapContainer (s := .cassandra) (f := .drain) guarded_volume (fun _ h => h) (fun _ => rfl)
    (fun w choice r w' hr => ?_) (fun w ⟨h, c, hc, hv⟩ => ?_) fun _ h => h.1
  · simp only [perform] at hr
    split at hr
    · exact await_write hr
    · obtain ⟨rfl, message, rfl⟩ := Fallible.refuse_eq hr
      exact .inr ⟨⟨message, rfl⟩, .inl rfl⟩
  · exact ⟨⟨h.lock, h.alive⟩, c.drain, mapContainer_self hc, hv, fun _ => rfl⟩

theorem verified_stopCassandra {volume : JString} :
    Verified k setup p (Has p (Container.Drained k volume)) (stop .cassandra 180)
      (fun _ w => Held p w ∧ Still k volume w) (Held p) :=
  verified_mapContainer (s := .cassandra) (f := .stop) guarded_drained (fun _ h => h) (fun _ => rfl)
    (fun _ _ _ _ hr => await_write hr)
    (fun _ ⟨h, c, hc, hv, hd⟩ => ⟨⟨h.lock, h.alive⟩, c.stop, mapContainer_self hc, hv, rfl, rfl, hd⟩)
    fun _ h => h.1

theorem verified_startTar {volume image : JString} {destination : Path} :
    Verified k setup p (fun w => Held p w ∧ Still k volume w) (startTar volume image destination)
      (fun _ w => (Held p w ∧ Still k volume w) ∧ w.reading p = some ⟨volume, false⟩) (Held p) := by
  refine verified_write (f := fun choice w =>
    (w.setFile destination (some (.archive choice.content))).setReading p (some ⟨volume, false⟩))
    guarded_still (fun _ _ h => h) (fun w choice r w' hr => ?_) (fun w choice hw ⟨h, hs⟩ _ => ?_)
    fun w h => h.elim (·.1) (·.1.1)
  · simp only [perform] at hr
    split at hr
    · obtain ⟨rfl, message, rfl⟩ := Fallible.refuse_eq hr
      exact .inr ⟨⟨message, rfl⟩, .inl rfl⟩
    · exact await_write hr
  · have hinv : Inv k setup (w.setFile destination (some (.archive choice.content))) :=
      hw.setFile fun m hm => by cases hm
    exact ⟨⟨hinv.owned, hinv.honest, hinv.ofStack, hinv.restored, hinv.kept⟩,
      h.guarantee rfl fun q hq => Function.update_of_ne hq .., ⟨⟨h.lock, h.alive⟩, hs⟩,
      Function.update_self ..⟩

theorem verified_exitTar {volume : JString} {destination : Path} :
    Verified k setup p (fun w => (Held p w ∧ Still k volume w) ∧ w.reading p = some ⟨volume, false⟩)
      (exitTar destination) (fun _ w => ∃ tree, Archived setup p destination tree w) (Held p) := by
  refine triple_call guarded_reading.stable fun w hw ⟨⟨h, hs⟩, hr⟩ =>
    ⟨⟨h, volume, hs, hr⟩, fun choice r w' hp _ => ?_⟩
  have hfile (bytes : Bytes) : Inv k setup (w.setFile destination (some (.archive bytes))) :=
    hw.setFile fun m hm => by cases hm
  simp only [perform] at hp
  split at hp
  · simp only [World.exitTar, hr, Option.some.injEq, Prod.mk.injEq] at hp
    obtain ⟨rfl, rfl⟩ := hp
    let tree := (w.volumes volume).getD setup.tar.empty
    have hinv := (hfile (setup.tar.pack tree)).capture destination.name tree
    have harchived : Archived setup p destination tree
        (({ w.setFile destination (some (.archive (setup.tar.pack tree))) with
            captured := (destination.name, tree) :: w.captured }).setReading p none) :=
      ⟨⟨h.lock, h.alive⟩, Function.update_self .., List.mem_cons_self ..⟩
    exact ⟨⟨hinv.owned, hinv.honest, hinv.ofStack, hinv.restored, hinv.kept⟩,
      h.guarantee rfl fun q hq => Function.update_of_ne hq .., .inl ⟨(), rfl, tree, harchived⟩⟩
  · next message _ =>
    simp only [Option.some.injEq, Prod.mk.injEq] at hp
    obtain ⟨rfl, rfl⟩ := hp
    have hinv := hfile choice.content
    exact ⟨⟨hinv.owned, hinv.honest, hinv.ofStack, hinv.restored, hinv.kept⟩,
      h.guarantee rfl fun q hq => Function.update_of_ne hq .., .inr ⟨message, rfl, ⟨h.lock, h.alive⟩⟩⟩

theorem verified_hashArchived {path : Path} :
    Verified k setup p (fun w => ∃ tree, Archived setup p path tree w) (hash path)
      (fun digest w => ∃ tree, Archived setup p path tree w ∧ digest = setup.sha256 (setup.tar.pack tree))
      (Held p) := by
  refine Triple.conseq (verified_read (Q := fun digest w => ∃ tree, Archived setup p path tree w ∧
    digest = setup.sha256 (setup.tar.pack tree)) rfl (Guarded.exists fun _ => guarded_archived)
    fun w choice r _ ⟨tree, ha⟩ hr => ?_) (fun _ _ _ h => h) (fun _ _ _ h => h) fun _ _ _ ⟨_, ha⟩ => ha.held
  simp only [perform, ha.file] at hr
  rcases (Fallible.read_eq hr).2 with rfl | ⟨message, rfl⟩
  · exact .inl ⟨_, rfl, tree, ha, rfl⟩
  · exact .inr ⟨message, rfl, tree, ha⟩

theorem verified_writeManifest {images : Images} {cassandra graph : Details} {id createdAt digest : JString} :
    Verified k setup p (fun w => ∃ tree, Archived setup p (destination id) tree w ∧
        digest = setup.sha256 (setup.tar.pack tree))
      (writeManifest (destination id).json (manifest images cassandra graph id createdAt digest))
      (fun _ => Held p) (Held p) := by
  refine verified_write (f := fun choice w => w.setFile (destination id).json
    (some (choice.manifest (manifest images cassandra graph id createdAt digest))))
    (Guarded.exists fun _ => guarded_archived.const _) (fun _ _ ⟨_, h, _⟩ => h.held)
    (fun _ _ _ _ hr => await_write hr) (fun w choice hw ⟨tree, h, hd⟩ _ => ?_)
    fun w h => h.elim (fun ⟨_, h, _⟩ => h.held) fun h => h
  refine ⟨hw.setFile fun m hm => ?_, h.held.guarantee rfl fun _ _ => rfl, ⟨h.held.lock, h.held.alive⟩⟩
  simp only [Choice.manifest, Option.some.injEq, File.manifest.injEq] at hm
  split at hm
  · cases hm
  · obtain rfl := Option.some.inj hm
    exact ⟨(destination id).name, tree, h.captured, rfl, by rw [← hd]; rfl⟩

/-- From a Cassandra on the volume, the backup leaves the lock with the run. -/
theorem verified_archive {images : Images} {cassandra graph : Details} {volume id : JString} :
    Verified k setup p (Has p fun c => c.details.volume = some volume)
      (archive images cassandra graph volume id) (fun _ => Held p) (Held p) := by
  refine Triple.bind verified_stopGraph fun _ => ?_
  refine Triple.bind verified_drain fun _ => ?_
  refine Triple.bind verified_stopCassandra fun _ => ?_
  refine Triple.bind verified_startTar fun _ => ?_
  refine Triple.bind verified_exitTar fun _ => ?_
  have harchived : Guarded k setup p fun w => ∃ tree, Archived setup p (destination id) tree w :=
    Guarded.exists fun _ => guarded_archived
  refine Triple.bind (Triple.conseq (verified_reads (reads_call rfl fun _ => .pure _) harchived)
    (fun _ _ _ h => h) (fun _ _ _ h => h) fun _ _ _ ⟨_, h⟩ => h.held) fun createdAt => ?_
  exact Triple.bind verified_hashArchived fun digest => verified_writeManifest

/-- `up` starts what was stopped. -/
theorem verified_up : Verified k setup p (Held p) up (fun _ => Done k p) (Done k p) := by
  refine triple_call guarded_held.stable fun w hw h => ⟨h, fun choice r w' hr hallowed => ?_⟩
  simp only [perform] at hr
  split at hr
  · next hstack =>
    simp only [Fallible.reply, Option.some.injEq, Prod.mk.injEq] at hr
    obtain ⟨rfl, rfl⟩ := hr
    refine ⟨hw.containers h (ofStack_eq hstack), h.guarantee rfl fun _ _ => rfl, ?_⟩
    cases he : choice.error with
    | none =>
      refine .inl ⟨(), rfl, ⟨h.lock, h.alive⟩, fun _ s c hc => ?_⟩
      simp only [World.up, he, Option.isNone_none, Bool.true_or, if_true, Option.some.injEq] at hc
      rw [← hc]
      rfl
    | some message =>
      have hk : k.kept = false := by simpa [allowed, he] using hallowed
      exact .inr ⟨message, rfl, ⟨h.lock, h.alive⟩, fun hkept => absurd hkept (by simp [hk])⟩
  · cases hr

theorem verified_ps :
    Verified k setup p (Done k p) (ps .cassandra)
      (fun id w => Done k p w ∧ (id ≠ [] → Has p (fun c => c.id = id) w)) (Done k p) := by
  refine verified_read rfl guarded_done fun w choice r _ h hr => ?_
  rcases (Fallible.read_eq hr).2 with rfl | ⟨message, rfl⟩
  · refine .inl ⟨_, rfl, h, fun hne => ⟨h.held, ?_⟩⟩
    cases hc : (w.containers .cassandra).filter (·.running) with
    | none => simp [hc] at hne
    | some c => exact ⟨c, (Option.filter_eq_some_iff.1 hc).1, by simp⟩
  · exact .inr ⟨message, rfl, h⟩

theorem verified_inspect {id : JString} :
    Verified k setup p (fun w => Done k p w ∧ Has p (fun c => c.id = id) w) (inspect id)
      (fun details w => Done k p w ∧ Has p (fun c => c.details = details) w) (Done k p) := by
  refine Triple.conseq (verified_read (Q := fun details w => Done k p w ∧ Has p (fun c => c.details = details) w)
    rfl guarded_id fun w choice r _ ⟨hd, h, c, hc, hid⟩ hr => ?_)
    (fun _ _ _ h => h) (fun _ _ _ h => h) fun _ _ _ h => h.1
  have hfound : w.container id = some c := by simp [World.container, hc, hid]
  simp only [perform, hfound] at hr
  rcases (Fallible.read_eq hr).2 with rfl | ⟨message, rfl⟩
  · exact .inl ⟨_, rfl, hd, h, c, hc, rfl⟩
  · exact .inr ⟨message, rfl, hd, h, c, hc, hid⟩

/-- A backup leaves the stack as it may be left. -/
theorem verified_localBackup {images : Images} :
    Verified k setup p (Done k p) (localBackup images) (fun _ => Done k p) (Done k p) := by
  refine Triple.bind (verified_reads (reads_call rfl fun _ => .pure _) guarded_done) fun time => ?_
  refine Triple.bind verified_ps fun container => ?_
  refine Triple.bind (triple_throwIf fun _ h => h.1) fun _ => ?_
  refine Triple.bind (Triple.pre verified_inspect fun _ w ⟨⟨hd, h⟩, hne⟩ => ⟨hd, h ?_⟩) fun details => ?_
  · rintro rfl
    cases hne
  · split
    · exact Triple.throw _ fun _ _ h => h.1
    · next volume hvolume =>
      have hreads {β : Type} {m : Js β} (hm : m.Calls (fun c => c.reads = true) true) :
          Verified k setup p (fun w => Done k p w ∧ Has p (fun c => c.details = details) w) m
            (fun _ w => Done k p w ∧ Has p (fun c => c.details = details) w) (Done k p) :=
        Triple.conseq (verified_reads hm guarded_details) (fun _ _ _ h => h) (fun _ _ _ h => h)
          fun _ _ _ h => h.1
      refine Triple.bind (triple_throwIf fun _ h => h.1) fun _ => Triple.pre ?_ fun _ _ h => h.1
      refine Triple.bind (hreads (reads_call rfl fun _ => .await _)) fun graphContainer => ?_
      refine Triple.bind (hreads (reads_call rfl fun _ => .await _)) fun graph => ?_
      refine Triple.bind (triple_throwIf fun _ h => h.1) fun _ => Triple.pre ?_ fun _ _ h => h.1
      refine Triple.tryFinally (Triple.pre verified_archive fun _ w ⟨_, h, c, hc, hd⟩ => ⟨h, c, hc, ?_⟩)
        (fun _ => verified_up) (fun _ => verified_up) fun _ _ _ h => h
      exact (congrArg Details.volume hd).trans hvolume

end CartyxInfra.Local
