/-
The calls each part of a run can make, by kind: what a kind of calls leaves
alone, every part made of such calls leaves alone. And what a write does to a
program, whatever the protocol.
-/
import CartyxInfra.Lib.RelyGuarantee
import CartyxInfra.Backup.Cluster

namespace CartyxInfra.Backup

open JString

/-- What a call is, to the other parts of the cluster. -/
inductive Kind
  | read
  /-- A GET of a workload or a release. -/
  | observe
  | lease
  | scale
  | suspend
  | status
  | startTar
  | exitTar
  | put
  | delete
  deriving DecidableEq

/-- The kind of a call. -/
def Call.kind : Call → Kind
  | .getWorkload _ | .getRelease _ => .observe
  | .patchLease _ => .lease
  | .patchScale .. => .scale
  | .patchSuspend .. => .suspend
  | .patchStatus _ => .status
  | .startTar _ => .startTar
  | .exitTar => .exitTar
  | .putObject .. => .put
  | .deleteObject _ => .delete
  | .getLease | .getPod _ | .getPods _ | .getConfig | .now | .cancelled | .arrival _ | .files
  | .getObject _ | .listObjects .. => .read

/-- The program makes calls of these kinds only and leaves its variables alone, or at least the former. -/
abbrev Makes (kinds : List Kind) (keep : Bool) (m : Js α) : Prop :=
  Program.Calls (fun c => c.kind ∈ kinds) keep m

variable {kinds : List Kind} {keep : Bool} {α β : Type}

theorem makes_make {c : Call} (hc : c.kind ∈ kinds) : Makes kinds keep (Program.make c) :=
  fun _ => ⟨hc, fun _ _ => rfl⟩

theorem makes_call {c : Call} {next : c.Ret → Js α} (hc : c.kind ∈ kinds)
    (hn : ∀ r, Makes kinds keep (next r)) :
    Makes kinds keep (Program.make c >>= next) := (makes_make hc).bind hn

theorem makes_ignoringErrors {m : Js Unit} (hm : Makes kinds keep m) :
    Makes kinds keep (ignoringErrors m) := by
  refine hm.tryCatch fun e => ?_
  cases e with
  | error => exact .pure _
  | exit => exact .throw _

theorem makes_value {container : Container} {name : JString} : Makes kinds keep (container.value name) := by
  unfold Container.value
  split
  · exact .throw _
  · exact .pure _

/-! ## Reading -/

section

variable (hr : Kind.read ∈ kinds) (ho : Kind.observe ∈ kinds)

section

include hr

theorem makes_now : Makes kinds keep now := makes_make hr

theorem makes_files : Makes kinds keep files := makes_call hr .await

theorem makes_checkpoint : Makes kinds keep checkpoint :=
  (makes_make (c := .cancelled) hr).bind fun _ => .throwIf _ _

theorem makes_poll {check : Js Bool} (hc : Makes kinds keep check) (label : JString) (deadline : Int) :
    ∀ polls, Makes kinds keep (poll check label deadline polls)
  | 0 => .throw _
  | polls + 1 => by
    refine hc.bind fun done => ?_
    split
    · exact .pure _
    · refine (makes_now hr).bind fun time => ?_
      split
      · exact makes_poll hc label deadline polls
      · exact .throw _

theorem makes_waitUntil {check : Js Bool} (hc : Makes kinds keep check) (label : JString) (seconds : Nat) :
    Makes kinds keep (waitUntil check label seconds) :=
  (makes_now hr).bind fun _ => makes_poll hr hc _ _ _

theorem makes_listEntries {pre : JString} : ∀ (pages : Nat) (token : Option JString) (entries : List Entry),
    Makes kinds keep (listEntries pre pages token entries)
  | 0, _, _ => .throw _
  | pages + 1, _, _ => by
    refine (makes_call hr .await).bind fun page => ?_
    split
    · exact .pure _
    · exact makes_listEntries pages _ _

theorem makes_manifest {setup : Setup} {owner : PodName} {read : Snapshot} :
    Makes kinds keep (manifest setup owner read) := by
  unfold manifest
  split
  · exact (makes_now hr).bind fun _ => makes_value.bind fun _ => makes_value.bind fun _ => .pure _
  · exact .throw _

end

section

include ho

theorem makes_getRelease {r : Reconciler} : Makes kinds keep (getRelease r) := makes_call ho .await

theorem makes_recovered {original : Original} : Makes kinds keep (recovered original) :=
  (makes_call ho .await).bind fun _ => (makes_call ho .await).bind fun _ => .pure _

theorem makes_read {snapshot : Snapshot} {path : Path} : Makes kinds keep (snapshot.read path) := by
  unfold Snapshot.read
  split
  all_goals exact (makes_call ho .await).bind fun _ => .pure _

end

include hr ho

theorem makes_readAll {paths : List Path} : Makes kinds keep (readAll paths) :=
  (makes_make (c := .arrival paths) hr).bind fun order => .foldlM (fun _ _ => makes_read ho) order _

theorem makes_preflight : Makes kinds keep preflight := by
  refine (makes_readAll hr ho).bind fun read => ?_
  split
  · exact (Program.Calls.throwIf _ _).bind fun _ => (Program.Calls.throwIf _ _).bind fun _ => .throwIf _ _
  · exact .throw _

end

/-! ## Writing -/

theorem makes_startTar (hs : Kind.startTar ∈ kinds) {recovery : Recovery} :
    Makes kinds keep (startTar recovery) :=
  makes_make hs

theorem makes_patchStatus (hs : Kind.status ∈ kinds) {data : Status} : Makes kinds keep (patchStatus data) :=
  makes_call hs .await

theorem makes_failed (hs : Kind.status ∈ kinds) {message : JString} : Makes kinds keep (failed message) := by
  refine Program.Calls.get.bind fun vars => ?_
  split
  · exact makes_ignoringErrors (makes_patchStatus hs)
  · exact .pure _

theorem makes_expire (hd : Kind.delete ∈ kinds) {pre : JString} {entry : Entry} :
    Makes kinds keep (expire pre entry) :=
  (Program.Calls.throwIf _ _).bind fun _ => (makes_call hd .await).bind fun _ => makes_call hd .await

theorem makes_retire (hr : Kind.read ∈ kinds) (hd : Kind.delete ∈ kinds) {pre : JString}
    (entries : List Entry) (weeks : List Int) :
    Makes kinds keep (retire pre entries weeks) := by
  induction entries generalizing weeks with
  | nil => exact .pure _
  | cons entry rest ih =>
    refine (makes_now hr).bind fun time => Program.Calls.bind ?_ fun _ => ih _
    unfold expireUnless
    split
    · exact .pure _
    · exact makes_expire hd

theorem makes_retireOldBackups (hr : Kind.read ∈ kinds) (hd : Kind.delete ∈ kinds) {setup : Setup} :
    Makes kinds keep (retireOldBackups setup) :=
  (makes_listEntries hr _ _ _).bind fun _ => makes_retire hr hd _ _

theorem makes_publish (hr : Kind.read ∈ kinds) (hp : Kind.put ∈ kinds) {setup : Setup} {owner : PodName}
    {manifest : Manifest} {content : Bytes} : Makes kinds keep (publish setup owner manifest content) := by
  refine (makes_files hr).bind fun _ => (makes_call hp .await).bind fun _ =>
    (makes_call hr .await).bind fun readback => ?_
  cases readback with
  | json => exact .throw _
  | bytes stored =>
    exact (Program.Calls.throwIf _ _).bind fun _ => (makes_checkpoint hr).bind fun _ =>
      (makes_call hp .await).bind fun _ => .pure _

section

variable (hr : Kind.read ∈ kinds) (ho : Kind.observe ∈ kinds) (hscale : Kind.scale ∈ kinds)
  (hsuspend : Kind.suspend ∈ kinds)
include hr ho hscale hsuspend

theorem makes_resume {original : Original} : Makes kinds keep (resume original) :=
  (makes_call hscale .await).bind fun _ => (makes_call hscale .await).bind fun _ =>
    (makes_waitUntil hr (makes_recovered ho) _ _).bind fun _ =>
    (makes_call hsuspend .await).bind fun _ => makes_call hsuspend .await

theorem makes_resumeOriginal : Makes kinds keep resumeOriginal := by
  refine Program.Calls.get.bind fun vars => ?_
  split
  · exact .throw _
  · exact makes_resume hr ho hscale hsuspend

theorem makes_recoverServices : Makes kinds keep recoverServices := by
  have back : Makes kinds keep resumeIfNeeded := by
    refine Program.Calls.get.bind fun vars => ?_
    split
    · exact makes_resumeOriginal hr ho hscale hsuspend
    · exact .pure _
  refine (back.bind fun _ => .pure _).tryCatch fun e => ?_
  cases e with
  | error => exact .pure _
  | exit => exact .throw _

theorem makes_release (hl : Kind.lease ∈ kinds) : Makes kinds keep release := by
  refine Program.Calls.get.bind fun vars => ?_
  split
  · refine Program.Calls.bind (makes_recoverServices hr ho hscale hsuspend) fun recovered => ?_
    split
    · exact makes_call hl .await
    · exact .pure _
  · exact .pure _

theorem makes_recover (hl : Kind.lease ∈ kinds) (hs : Kind.status ∈ kinds) {lease : Lease} :
    Makes kinds keep (recover lease) := by
  unfold recover
  split
  · exact .throw _
  · refine (makes_call hr .await).bind fun pods => (Program.Calls.throwIf _ _).bind fun _ => ?_
    split
    · exact .throw _
    · exact (Program.Calls.throwIf _ _).bind fun _ => (makes_resume hr ho hscale hsuspend).bind fun _ =>
        (makes_call hl .await).bind fun _ => (makes_patchStatus hs).bind fun _ => .throw _

end

theorem makes_acquire (hl : Kind.lease ∈ kinds) {owner : PodName} {lease : Lease} :
    Makes kinds false (acquire owner lease) :=
  (Program.Calls.modify _).bind fun _ => (makes_call hl .await).bind fun _ => .modify _

theorem makes_needsRecovery {b : Bool} : Makes kinds false (needsRecovery b) := .modify _

theorem makes_suspend (hr : Kind.read ∈ kinds) (ho : Kind.observe ∈ kinds) (hsuspend : Kind.suspend ∈ kinds) :
    Makes kinds keep suspend := by
  have idle : ∀ r, Makes kinds keep (do return !(← getRelease r).is .reconciling : Js Bool) :=
    fun r => (makes_getRelease ho).bind fun _ => .pure _
  exact (makes_call hsuspend .await).bind fun _ => (makes_waitUntil hr (idle .flux) _ _).bind fun _ =>
    (makes_call hsuspend .await).bind fun _ => (makes_waitUntil hr (idle .helm) _ _).bind fun _ =>
    (makes_readAll hr ho).bind fun _ => (makes_checkpoint hr).bind fun _ => .pure _

theorem makes_gone (hr : Kind.read ∈ kinds) {c : Component} :
    Makes kinds keep (do return (← getPods c) == 0 : Js Bool) :=
  (makes_call hr .await).bind fun _ => .pure _

theorem makes_scaleDown (hr : Kind.read ∈ kinds) (hscale : Kind.scale ∈ kinds) {c : Component}
    {label : JString} :
    Makes kinds keep (scaleDown c label) :=
  (makes_call hscale .await).bind fun _ => (makes_waitUntil hr (makes_gone hr) _ _).bind fun _ =>
    makes_checkpoint hr

theorem makes_archive (hr : Kind.read ∈ kinds) (hs : Kind.status ∈ kinds) (hst : Kind.startTar ∈ kinds)
    (hex : Kind.exitTar ∈ kinds) {setup : Setup} {owner : PodName} {read : Snapshot} :
    Makes kinds keep (archive setup owner read) :=
  (makes_patchStatus hs).bind fun _ => (makes_files hr).bind fun _ =>
    (makes_call hr .await).bind fun _ =>
    (makes_manifest hr).bind fun _ => (makes_files hr).bind fun _ =>
    (makes_startTar hst).bind fun _ =>
    (makes_call hex .await).bind fun _ => (makes_checkpoint hr).bind fun _ => .pure _

/-! ## What a write does -/

/-- The Lease has the version a patch of it asks for. -/
def Call.fits : Call → World → Prop
  | .patchLease patch, w => ∀ v, patch.resourceVersion = some v → w.lease.resourceVersion = v
  | _, _ => True

/-- A call that takes effect and returns or throws, or does nothing and throws. -/
def Writes (c : Call) (next : c.Ret → Js Unit) : Prop :=
  ∀ p choice w r w', perform p c choice w = some (r, w') →
    (choice.lands = true ∧ c.fits w ∧ w' = effect p c choice w ∧
      (next r = pure () ∨ ∃ message, next r = fail message)) ∨
    (w' = w ∧ ∃ message, next r = fail message)

theorem Choice.write_writes {choice : Choice} {w v w' : World} {r : Reply Unit} {fits : Prop} (hf : fits)
    (h : choice.write w v = some (r, w')) :
    (choice.lands = true ∧ fits ∧ w' = v ∧
        ((await r : Js Unit) = pure () ∨ ∃ message, (await r : Js Unit) = fail message)) ∨
      (w' = w ∧ ∃ message, (await r : Js Unit) = fail message) := by
  rcases Fallible.write_cases h with ⟨hl, hv, hr⟩ | ⟨-, hw, message, rfl⟩
  · refine .inl ⟨hl, hf, hv, ?_⟩
    rcases hr with rfl | ⟨message, rfl⟩
    · exact .inl rfl
    · exact .inr ⟨message, rfl⟩
  · exact .inr ⟨hw, message, rfl⟩

theorem writes_patchScale {c : Component} {n : Nat} : Writes (.patchScale c n) await :=
  fun _ _ _ _ _ h => Choice.write_writes trivial h

theorem writes_patchSuspend {r : Reconciler} {b : Bool} : Writes (.patchSuspend r b) await :=
  fun _ _ _ _ _ h => Choice.write_writes trivial h

theorem writes_patchStatus {data : Status} : Writes (.patchStatus data) await :=
  fun _ _ _ _ _ h => Choice.write_writes trivial h

theorem writes_putObject {key : JString} {body : Body} : Writes (.putObject key body) await :=
  fun _ _ _ _ _ h => Choice.write_writes trivial h

theorem writes_deleteObject {key : JString} : Writes (.deleteObject key) await :=
  fun _ _ _ _ _ h => Choice.write_writes trivial h

theorem writes_patchLease {patch : LeasePatch} : Writes (.patchLease patch) await := by
  intro p choice w r w' h
  simp only [perform] at h
  split at h
  · next hv =>
    refine Choice.write_writes (fun v he => ?_) h
    rw [he] at hv
    have : v = w.lease.resourceVersion := by simpa using hv
    exact this.symm
  · cases h
    exact .inr ⟨rfl, _, rfl⟩

/-! ## Rules for programs -/

section

variable {W C V : Type} {P : Protocol PodName Call W} {M : Machine PodName Call Call.Ret W C V}
  {allowed : W → Move PodName Call C V → Bool} {p : PodName} {A B : Variables → W → Prop}
  {E : Stop → Variables → W → Prop}

/-- A wait that ends leaves what its last check has found. -/
theorem triple_waitUntil {check : Js Bool} {label : JString} {seconds : Nat}
    (hnow : Triple P M allowed p A now (fun _ => A) E)
    (hcheck : Triple P M allowed p A check (fun done s w => A s w ∧ (done = true → B s w)) E)
    (hE : ∀ message s w, A s w → E (.error message) s w) :
    Triple P M allowed p A (waitUntil check label seconds) (fun _ => B) E := by
  have hpoll : ∀ deadline polls,
      Triple P M allowed p A (poll check label deadline polls) (fun _ => B) E := by
    intro deadline polls
    induction polls with
    | zero => exact Triple.throw _ (hE _)
    | succ polls ih =>
      refine Triple.bind hcheck fun done => ?_
      split
      · next hd => exact Triple.pure _ fun s w h => h.2 hd
      · refine Triple.bind (Triple.pre hnow fun _ _ h => h.1) fun time => ?_
        split
        · exact ih
        · exact Triple.throw _ (hE _)
  exact Triple.bind hnow fun start => hpoll _ _

end

section

variable {P : Protocol PodName Call World} {allowed : World → Move PodName Call Choice Env → Bool}
  {p : PodName} {A B : Variables → World → Prop} {E : Stop → Variables → World → Prop}

/-- A call in the cluster. -/
theorem triple_call {c : Call} {next : c.Ret → Js α} {Q : α → Variables → World → Prop}
    (hA : ∀ s, P.Stable machine allowed p (A s))
    (h : ∀ s w, P.inv w → A s w → P.pending p c w ∧ ∀ choice r w', perform p c choice w = some (r, w') →
      allowed w (.act p c choice) = true → P.inv w' ∧ P.guarantee p w w' ∧
        ((∃ a, next r = pure a ∧ Q a s w') ∨ ∃ message, next r = fail message ∧ E (.error message) s w')) :
    Triple P machine allowed p A (Program.make c >>= next) Q E := Triple.answer hA h

/-- A write: it may have taken effect when it throws. -/
theorem triple_write {c : Call} {next : c.Ret → Js Unit} (hc : Writes c next)
    (hA : ∀ s, P.Stable machine allowed p (A s)) (hp : ∀ s w, P.inv w → A s w → P.pending p c w)
    (hrefl : ∀ w, P.inv w → P.guarantee p w w)
    (h : ∀ s w choice, P.inv w → A s w → c.fits w → choice.lands = true → allowed w (.act p c choice) = true →
      P.inv (effect p c choice w) ∧ P.guarantee p w (effect p c choice w) ∧ B s (effect p c choice w)) :
    Triple P machine allowed p A (Program.make c >>= next) (fun _ => B) fun _ s w => A s w ∨ B s w := by
  refine triple_call hA fun s w hw ha => ⟨hp s w hw ha, fun choice r w' hr hal => ?_⟩
  rcases hc p choice w r w' hr with ⟨hl, hfits, rfl, hn⟩ | ⟨rfl, message, hn⟩
  · obtain ⟨hinv, hg, hb⟩ := h s w choice hw ha hfits hl hal
    refine ⟨hinv, hg, ?_⟩
    rcases hn with hn | ⟨message, hn⟩
    · exact .inl ⟨(), hn, hb⟩
    · exact .inr ⟨message, hn, .inr hb⟩
  · exact ⟨hw, hrefl w' hw, .inr ⟨message, hn, .inl ha⟩⟩

end

end CartyxInfra.Backup
