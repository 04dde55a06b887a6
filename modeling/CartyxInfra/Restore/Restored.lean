/-
What a rehearsal keeps to, over every run of any number of restores, killed
wherever they may be: a run changes only the namespace it has made and that
namespace's volume, it installs a release only on the approved archive's
files in a volume that was empty, and what its result tells is so.
-/
import CartyxInfra.Restore.Loaded

namespace CartyxInfra.Restore

open JString Backup

section

variable {Tree : Type} [DecidableEq Tree] {setup : Setup Tree} {flag : Bool} {p : Pid} {w w' : World Tree}
  {space : JString} {B : World Tree → Prop} {environment : Namespace} {manifestKey : JString} {s : Runs Tree}

/-! ## From the release to the result -/

omit [DecidableEq Tree] in
theorem Moves.setForward (hw : Inv w) (ha : Alive p w) (up : Bool) :
    Inv (w.setForward p up) ∧ Guarantee p w (w.setForward p up) := by
  refine ⟨⟨hw.claims, hw.born, fun q hq => ?_⟩, { (Moves.refl (p := p) hw).guarantee with
    own := fun q hq => ⟨rfl, rfl, by simp [World.setForward, hq]⟩ }⟩
  have hne : q ≠ p := by
    rintro rfl
    have halive : w.life q = .live := ha
    have hunborn : w.life q = .unborn := hq
    rw [halive] at hunborn
    cases hunborn
  simpa [World.setForward, hne] using hw.quiet q hq

/-- The variable is set with the port-forward. -/
theorem verified_portForward (hB : Kept setup p B) (hwithin : ∀ w, B w → Within p space (fun _ _ => True) w)
    (hforward : ∀ w up, B w → B (w.setForward p up)) :
    Triple (protocol setup) (machine setup) always p (Owned false p B) (portForward space)
      (fun _ => Owned true p B) fun _ => Owned false p fun _ => True := by
  refine Triple.bind (Q := fun _ _ w => Alive p w ∧ B w) (Triple.make hB.stable
    fun s w hw ⟨_, _, ha, hb⟩ => ⟨hwithin w hb, fun choice r w' hr _ => ?_⟩)
    fun _ => Triple.modify fun _ w ⟨ha, hb⟩ => ⟨rfl, by simp, ha, hb⟩
  obtain ⟨-, rfl⟩ := Prod.mk.inj (Option.some.inj hr)
  split
  · obtain ⟨hinv, hguarantee⟩ := Moves.setForward hw ha true
    exact ⟨hinv, hguarantee, ha, hforward w true hb⟩
  · exact ⟨hw, (Moves.refl hw).guarantee, ha, hb⟩

/-- The run has nothing left to do. -/
def Ended (p : Pid) (w : World Tree) : Prop := Alive p w ∧ w.forwards p = false

/-- No port-forward is left, whether there was one or not. -/
theorem verified_killForward {E : JString → Bool → World Tree → Prop} (hB : Kept setup p B)
    (hforward : ∀ w up, B w → B (w.setForward p up)) :
    Triple (protocol setup) (machine setup) always p (fun s w => ∃ flag, Owned flag p B s w) killForward
      (fun _ _ w => Ended p w ∧ B w) E := by
  refine Triple.exists_pre fun flag => Triple.read fun forward => ?_
  refine Triple.extract (c := forward = flag) (fun s w h => h.1.trans h.2.1) fun hflag => ?_
  subst hflag
  cases forward with
  | false => exact Triple.pure () fun _ _ ⟨_, _, hf, ha, hb⟩ => ⟨⟨ha, hf rfl⟩, hb⟩
  | true =>
    refine Triple.pre (Triple.make hB.stable fun s w hw ⟨_, _, ha, hb⟩ => ⟨trivial, fun choice r w' hr _ => ?_⟩)
      fun _ _ h => h.2
    cases hr
    obtain ⟨hinv, hguarantee⟩ := Moves.setForward hw ha false
    exact ⟨hinv, hguarantee, ⟨ha, by simp [World.setForward]⟩, hforward w false hb⟩

omit [DecidableEq Tree] in
theorem kept_restored {result : Result} : Kept setup p (Restored setup p result) := by
  refine (Kept.const _).and ((Kept.const _).and (Kept.exists fun bytes => Kept.exists fun name => ?_))
  exact kept_approved.and ((Kept.const _).and ((Kept.const _).and (kept_extracted.and ((Kept.const _).and
    (kept_within (lasting_sealed.and lasting_installed))))))

/-- The release runs on the archive's files. -/
def Running (setup : Setup Tree) (p : Pid) (space : JString) (environment : Namespace) (bytes : Bytes)
    (tree : Tree) (name : JString) (w : World Tree) : Prop :=
  Filled setup p bytes tree name w ∧
    Within p space (fun w s => Sealed setup bytes w s ∧ Installed (setup.values p environment) name w s) w

omit [DecidableEq Tree] in
theorem kept_running {bytes : Bytes} {tree : Tree} {name : JString} :
    Kept setup p (Running setup p space environment bytes tree name) :=
  kept_filled.and (kept_within (lasting_sealed.and lasting_installed))

omit [DecidableEq Tree] in
theorem Running.within {bytes : Bytes} {tree : Tree} {name : JString}
    (h : Running setup p space environment bytes tree name w) : Within p space (fun _ _ => True) w :=
  have ⟨s, hs, hc, _⟩ := h.2
  ⟨s, hs, hc, trivial⟩

theorem verified_getClaim {bytes : Bytes} {tree : Tree} {name : JString} :
    Verified setup flag p (Running setup p space environment bytes tree name) (getClaim space)
      fun volume w => Running setup p space environment bytes tree name w ∧ volume = some name := by
  have hfind : Verified setup flag p (Running setup p space environment bytes tree name) (getClaim space)
      fun volume w => Running setup p space environment bytes tree name w ∧
        (w.spaces space).bind (·.claim) = some volume :=
    verified_find kept_running (fun _ h => h.within) fun w choice r w' hr => await_find hr
  refine hfind.conseq (fun _ h => h) fun volume w ⟨h, hlook⟩ => ⟨h, ?_⟩
  obtain ⟨s, hs, -, -, hclaim, -⟩ := h.2
  simp only [hs, Option.bind_some, hclaim, Option.some.injEq] at hlook
  exact hlook.symm

theorem verified_examine {parsed : Parsed} {bytes : Bytes} {tree : Tree} {name : JString}
    (henvironment : (setup.args p).environment = some environment)
    (hmanifestKey : (setup.args p).manifestKey = some manifestKey)
    (hsha : some (setup.tools.sha256 bytes) = parsed.sha256) :
    Verified setup flag p (Running setup p space environment bytes tree name)
      (examine environment manifestKey parsed space) fun result => Restored setup p result := by
  have hverify (verification : Verification) (port : JString) :
      Verified setup flag p (Running setup p space environment bytes tree name) (verify verification space port)
        fun _ => Running setup p space environment bytes tree name :=
    verified_ask kept_running (fun _ h => h.within) fun w choice r w' hr =>
      ⟨(Fallible.read_eq hr).1, await_cases r⟩
  have hport : Verified setup flag p (Running setup p space environment bytes tree name) awaitPort
      fun _ => Running setup p space environment bytes tree name :=
    verified_ask kept_running (fun _ _ => trivial) fun w choice r w' hr =>
      ⟨(Fallible.read_eq hr).1, await_cases r⟩
  refine Triple.bind hport fun port => ?_
  refine Triple.bind (hverify .smoke port) fun _ => Triple.bind (hverify .security port) fun _ => ?_
  refine Triple.bind (hverify .cqlSecurity port) fun _ => Triple.bind verified_getClaim fun volume => ?_
  let result : Result := ⟨environment, space, volume, manifestKey, parsed.sha256⟩
  have hwrite : Verified setup flag p (Restored setup p result) (writeResult result)
      fun _ => Restored setup p result :=
    verified_ask kept_restored (fun _ h => h) fun w choice r w' hr =>
      ⟨(Fallible.read_eq hr).1, await_cases r⟩
  refine Triple.bind (hwrite.conseq (fun w ⟨⟨⟨happroved, hunpack, hextracted⟩, hwithin⟩, hvolume⟩ => ?_)
    fun _ _ h => h) fun _ => verified_pure _ fun _ h => h
  exact ⟨henvironment, hmanifestKey, bytes, name, happroved, hsha.symm, hvolume, hextracted,
    by simp [hunpack], hwithin⟩

/-- A program that throws with the variable as it was. -/
theorem Verified.throws {α : Type} {A : World Tree → Prop} {Q : α → World Tree → Prop} {m : Js α}
    (h : Verified setup flag p A m Q) : Triple (protocol setup) (machine setup) always p (Owned flag p A) m
      (fun a => Owned flag p (Q a)) fun _ s w => ∃ flag, Owned flag p (fun _ => True) s w :=
  Triple.conseq h (fun _ _ _ h => h) (fun _ _ _ h => h) fun _ _ _ h => ⟨flag, h⟩

theorem verified_restore {connection : Connection}
    (henvironment : (setup.args p).environment = some environment)
    (hmanifestKey : (setup.args p).manifestKey = some manifestKey)
    (hplace : ofCluster environment manifestKey = true) :
    Triple (protocol setup) (machine setup) always p (Owned false p fun _ => True)
      (restore setup (setup.args p) environment manifestKey connection space)
      (fun result => Owned true p (Restored setup p result))
      fun _ s w => ∃ flag, Owned flag p (fun _ => True) s w := by
  refine Triple.bind verified_getObject.throws fun text => ?_
  refine Triple.bind (verified_await _).throws fun parsed => ?_
  refine Triple.extract (fun _ _ h => h.2.2.2.2) fun hmanifest => ?_
  have hprepare : Verified setup false p _ (prepare setup (setup.args p) environment parsed connection space) _ :=
    verified_prepare henvironment hmanifestKey hplace hmanifest
  refine Triple.bind (hprepare.conseq (fun _ h => h.1) fun _ _ h => h).throws fun _ => ?_
  refine Owned.exists_pre fun bytes => Triple.extract (fun _ _ h => h.2.2.2.2) fun hsha => ?_
  have hload : Verified setup false p (Prepared setup p space bytes) (load parsed space) _ := verified_load
  refine Triple.bind (hload.conseq (fun _ h => h.1) fun _ _ h => h).throws fun _ => ?_
  refine Owned.exists_pre fun tree => Owned.exists_pre fun name => ?_
  refine Triple.bind (verified_helm henvironment).throws fun _ => ?_
  have hforward : Triple (protocol setup) (machine setup) always p
      (Owned false p (Running setup p space environment bytes tree name)) (portForward space)
      (fun _ => Owned true p (Running setup p space environment bytes tree name))
      fun _ => Owned false p fun _ => True :=
    verified_portForward kept_running (fun _ h => h.within) fun _ _ h => h
  refine Triple.bind (Triple.conseq hforward (fun _ _ _ h => h) (fun _ _ _ h => h) fun _ _ _ h => ⟨false, h⟩)
    fun _ => ?_
  exact (verified_examine henvironment hmanifestKey hsha).throws

omit [DecidableEq Tree] in
theorem kept_true : Kept setup p fun _ : World Tree => True := .const True

theorem verified_secretValue {secret : Data} {key : String} :
    Verified setup flag p (fun _ => True) (secretValue setup secret key) fun _ _ => True := by
  unfold secretValue
  split
  · exact verified_pure _ fun _ h => h
  · exact verified_fail _

theorem verified_connect (henvironment : (setup.args p).environment = some environment) :
    Verified setup flag p (fun _ => True) (connect setup (setup.args p) environment) fun _ _ => True := by
  unfold connect
  split
  · split
    · exact verified_pure _ fun _ h => h
    · exact verified_fail _
  · have hget : Verified setup flag p (fun _ => True) (getSecret environment.text backupSecret)
        fun _ _ => True := by
      exact verified_ask kept_true (fun _ _ => ⟨rfl, by simp [henvironment]⟩) fun w choice r w' hr =>
        ⟨(Fallible.find_eq hr).1, await_cases r⟩
    refine Triple.bind hget fun secret => Triple.bind verified_secretValue fun account => ?_
    refine Triple.bind verified_secretValue fun bucket => Triple.bind verified_secretValue fun accessKeyId => ?_
    exact Triple.bind verified_secretValue fun secretAccessKey => verified_pure _ fun _ h => h

/-- **Keeping to its own.** Whatever its arguments are and wherever its calls fail, a run keeps to
its own, and leaves no port-forward. -/
theorem verified_main :
    Triple (protocol setup) (machine setup) always p (Owned false p fun _ => True) (main setup (setup.args p))
      (fun result _ w => Ended p w ∧ Restored setup p result w) fun _ _ w => Ended p w := by
  have hended : ∀ s (w : World Tree), Owned false p (fun _ => True) s w → Ended p w :=
    fun _ _ ⟨_, hf, ha, _⟩ => ⟨ha, hf rfl⟩
  have hends {α : Type} {A : World Tree → Prop} {Q : α → World Tree → Prop} {m : Js α}
      (h : Verified setup false p A m Q) :
      Triple (protocol setup) (machine setup) always p (Owned false p A) m
        (fun a => Owned false p (Q a)) fun _ _ w => Ended p w :=
    Triple.conseq h (fun _ _ _ h => h) (fun _ _ _ h => h) fun _ => hended
  unfold main
  split
  · exact Triple.throw _ hended
  · exact Triple.throw _ hended
  · next environment manifestKey henvironment hmanifestKey =>
    refine Triple.bind (hends (verified_await _)) fun _ => Triple.extract (fun _ _ h => h.2.2.2.2) fun hplace => ?_
    rw [check_ok] at hplace
    have hnow : Verified setup false p (fun _ => True) now fun _ _ => True :=
      verified_ask kept_true (fun _ _ => trivial) fun w choice r w' hr => by
        cases hr
        exact ⟨rfl, .inl ⟨_, rfl⟩⟩
    have hdirectory (space : JString) : Verified setup false p (fun _ => True) (makeDirectory space)
        fun _ _ => True :=
      verified_ask kept_true (fun _ _ => trivial) fun w choice r w' hr =>
      ⟨(Fallible.read_eq hr).1, await_cases r⟩
    refine Triple.bind (hends (hnow.conseq (fun _ _ => trivial) fun _ _ h => h)) fun time => ?_
    refine Triple.bind (hends (hdirectory _)) fun _ => ?_
    refine Triple.bind (hends (verified_connect henvironment)) fun connection => ?_
    refine Triple.bind (hends ((verified_await _).conseq (fun _ h => h) fun _ _ _ => trivial)) fun _ => ?_
    refine Triple.tryFinally (verified_restore henvironment hmanifestKey hplace) (fun result => ?_)
      (fun _ => ?_)
      fun _ _ _ h => h
    · exact Triple.pre (verified_killForward kept_restored fun _ _ h => h) fun _ _ h => ⟨true, h⟩
    · exact Triple.post (verified_killForward kept_true fun _ _ h => h) fun _ _ _ h => h.1

/-! ## Runs -/

/-- How a run ends. -/
def Outcome (setup : Setup Tree) (p : Pid) (out : Except JString Result × Bool) (w : World Tree) : Prop :=
  Ended p w ∧ ∀ result, out.1 = .ok result → Restored setup p result w

theorem keeping_environment :
    (protocol setup).Environment (machine setup) always (program setup) (Outcome setup) where
  start p mode w w' hw h := by
    simp only [machine, start, Option.ite_none_right_eq_some, Option.some.injEq] at h
    obtain ⟨hunborn, rfl⟩ := h
    have hw' : Inv { w with life := Function.update w.life p .live } := by
      refine ⟨hw.claims, fun space s q hs hq => ?_, fun q hq => ?_⟩
      · by_cases heq : q = p
        · simp [heq]
        · simpa [heq] using hw.born space s q hs hq
      · by_cases heq : q = p
        · simp [heq] at hq
        · exact hw.quiet q (by simpa [heq] using hq)
    refine ⟨hw', { (Moves.refl (p := p) hw).guarantee with
      life := fun q hq => Function.update_of_ne hq .. }, Triple.script verified_main hw' ?_ fun out w h => ?_⟩
    · exact ⟨rfl, fun _ => hw.quiet p hunborn, by simp [Alive], trivial⟩
    · obtain ⟨out, s⟩ := out
      cases out with
      | ok result =>
        refine ⟨h.1, fun result' hr => ?_⟩
        cases hr
        exact h.2
      | error => exact ⟨h, fun result' hr => by cases hr⟩
  stop p w hw := by
    refine ⟨⟨hw.claims, fun space s q hs hq => ?_, fun q hq => ?_⟩, { (Moves.refl (p := p) hw).guarantee with
      life := fun q hq => Function.update_of_ne hq .. }⟩
    · by_cases heq : q = p
      · simp [heq, machine, halt]
      · simpa [heq, machine, halt] using hw.born space s q hs hq
    · by_cases heq : q = p
      · simp [heq, machine, halt] at hq
      · exact hw.quiet q (by simpa [heq, machine, halt] using hq)
  env _ _ _ hw h _ := (env_sound (p := 0) hw h).1
  stable p out := by
    rintro w w' hi ⟨⟨ha, hf⟩, h⟩
    have hc := Interference.calm hi ha
    exact ⟨⟨hc.alive, hc.forward hf⟩, fun result hr => kept_restored w w' hc (h result hr)⟩

/-- Runs from an initial world keep to their own. -/
theorem keeping (h₀ : Initial w) (h : Reachable (machine setup) (program setup) always w s) :
    (protocol setup).Sound (machine setup) always (Outcome setup) s :=
  Protocol.sound keeping_environment h₀.inv h

end

end CartyxInfra.Restore
