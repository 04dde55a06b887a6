/-
`provision-secret` runs at once, and other writers of the Secret between any
two of their calls.

The API server gives each Secret that is written a resourceVersion it has not
given before, so a patch that tests the one it read meets the very Secret it
read. A run writes once at most: that patch, or a Secret where there is none.
-/
import CartyxInfra.Lib.RelyGuarantee
import CartyxInfra.Credentials.ProvisionSecret

namespace CartyxInfra.Credentials

open JString

/-- A process of the script. -/
abbrev Pid := Nat

/-- What nature decides of a call. -/
structure Choice where
  fate : Fate
  /-- Whether `secrets.mjs` exits with 0, and the files it leaves. -/
  secretsMjs : Bool × (JString → Option Bytes)
  /-- The resourceVersion of a Secret that is written. -/
  version : JString

/-- The host of a single call. -/
def Choice.host (choice : Choice) : Host where
  secretsMjs _ := choice.secretsMjs
  nextVersion _ _ := choice.version
  fate _ _ := choice.fate

/-- The Secret and the files that the runs share, with a record of what the runs did. -/
structure Cluster where
  world : World
  /-- The resourceVersions given so far. -/
  versions : List JString
  /-- The Secret as a run has read it. -/
  seen : Pid → Option Secret
  /-- The changes a run has made to the Secret: as it was, and as it is then. -/
  writes : Pid → List (Option Secret × Option Secret)

/-- The Secret a call has read. -/
def readBack : (c : Call) → c.Ret → Option Secret
  | .run .getSecret, answer => answer
  | _, _ => none

/-- A call is made, and leaves a world. -/
def Cluster.record (w : Cluster) (p : Pid) (version : JString) (read : Option Secret) (world : World) :
    Cluster where
  world := world
  versions := version :: w.versions
  seen := if read.isSome then Function.update w.seen p read else w.seen
  writes :=
    if world.secret = w.world.secret then w.writes
    else Function.update w.writes p (w.writes p ++ [(w.world.secret, world.secret)])

/-- What a run's call answers and does; versions are never given twice. -/
def perform (p : Pid) (c : Call) (choice : Choice) (w : Cluster) : Option (c.Ret × Cluster) :=
  if choice.version ∈ w.versions then none
  else (choice.host.handle c w.world).map fun out =>
    (out.1, w.record p choice.version (readBack c out.1) out.2)

/-- What others do: to the Secret, or to the files. -/
inductive Env
  /-- The Secret is made, or replaced by one of a new version. -/
  | put (secret : Secret)
  | delete
  | files (files : JString → Option Bytes)

/-- What such a step does, where it is possible. -/
def env : Env → Cluster → Option Cluster
  | .put secret, w =>
    if secret.resourceVersion ∈ w.versions then none
    else some { w with
      world := { w.world with secret := some secret }
      versions := secret.resourceVersion :: w.versions }
  | .delete, w => some { w with world := { w.world with secret := none } }
  | .files files, w => some { w with world := { w.world with files } }

/-- A run can be killed between any two calls; its record stays until the process runs again. -/
def machine : Machine Pid Call Call.Ret Cluster Choice Env where
  perform := perform
  start p w := some { w with seen := Function.update w.seen p none, writes := Function.update w.writes p [] }
  stop _ w := w
  env := env

/-- A run of `provision-secret`. -/
def program (bufferText : Bytes → JString) (environment : JString) (_ : Pid) (_ : Unit) :
    Script Call Call.Ret (Except Failure Unit × Unit) :=
  (provisionSecret bufferText environment).script ()

/-- No process has run, and the Secret that is there has a version. -/
structure Initial (w : Cluster) : Prop where
  version : ∀ secret, w.world.secret = some secret → secret.resourceVersion ∈ w.versions
  seen : ∀ p, w.seen p = none
  writes : ∀ p, w.writes p = []

/-! ## What a run may have done -/

/-- The changes of a run, by what it has read. -/
inductive Written : Option Secret → List (Option Secret × Option Secret) → Prop
  | untouched (seen : Option Secret) : Written seen []
  /-- The application's key, which held nothing, is added to the version that was read. -/
  | added {secret : Secret} {entries : Entries} {value : Bytes} (version : JString)
      (hdata : secret.data = some entries) (habsent : truthy (secret.get appKey) = false) :
      Written (some secret) [(some secret, some ⟨version, some (entries.put appKey value)⟩)]
  | created (seen : Option Secret) {entries : Entries} (version : JString)
    (hfiles : entries.map (·.1) = FILES) :
      Written seen [(none, some ⟨version, some entries⟩)]

/-- What a key of the Secret holds. -/
def World.get (w : World) (key : JString) : Option Bytes := w.secret.bind (·.get key)

theorem Entries.get_put_of_ne {key key' : JString} (hne : key' ≠ key) (value : Bytes) (entries : Entries) :
    (entries.put key value).get key' = entries.get key' := by
  induction entries with
  | nil => simp [put, get, Ne.symm hne]
  | cons entry rest ih =>
    rw [put]
    by_cases hkey : entry.1 = key
    · subst hkey
      simp [get, Ne.symm hne]
    · rw [if_neg (by simpa using hkey)]
      simp only [get, List.find?_cons] at ih ⊢
      split
      · rfl
      · exact ih

/-- The entries that are made of files are of their names. -/
theorem files_of_mapM {contents : JString → Option Bytes} {files : List JString} {entries : Entries}
    (h : (files.mapM fun file => (contents file).map fun value => (file, value)) = some entries) :
    entries.map (·.1) = files := by
  induction files generalizing entries with
  | nil =>
    cases h
    rfl
  | cons file files ih =>
    simp only [List.mapM_cons, Option.bind_eq_bind, Option.bind_eq_some_iff] at h
    obtain ⟨entry, hentry, rest, hrest, hentries⟩ := h
    obtain ⟨value, -, rfl⟩ := Option.map_eq_some_iff.1 hentry
    cases hentries
    rw [List.map_cons, ih hrest]

/-! ## One call -/

section Calls

variable {p : Pid} {w w' : Cluster} {choice : Choice}

/-- What a call leaves. -/
structure Performed (p : Pid) (c : Call) (choice : Choice) (w : Cluster) (r : c.Ret) (w' : Cluster) :
    Prop where
  fresh : choice.version ∉ w.versions
  handled : choice.host.handle c w.world = some (r, w'.world)
  record : w' = w.record p choice.version (readBack c r) w'.world

theorem perform_eq_some {c : Call} {r : c.Ret} (h : perform p c choice w = some (r, w')) :
    Performed p c choice w r w' := by
  unfold perform at h
  split at h
  · cases h
  · next hfresh =>
    obtain ⟨⟨answer, world⟩, hhandle, hout⟩ := Option.map_eq_some_iff.1 h
    cases hout
    exact ⟨hfresh, hhandle, rfl⟩

/-- A call that neither reads the Secret nor writes it. -/
def Call.quiet : Call → Bool
  | .run .getSecret | .run (.patchSecret _ _) | .run (.createSecret _) => false
  | _ => true

/-- A command does what it does, or nothing. -/
theorem handle_cases {host : Host} {command : Command} {answer : Option command.Answer} {world world' : World}
    (h : host.handle (.run command) world = some (answer, world')) :
    (answer = none ∧ world' = world) ∨ world' = (host.perform command world).2 := by
  simp only [Host.handle] at h
  split at h
  · exact .inr (congrArg Prod.snd (Option.some.inj h)).symm
  · cases h
    exact .inl ⟨rfl, rfl⟩
  · cases h
    exact .inr rfl

theorem Performed.secret_of_quiet {c : Call} {r : c.Ret} (h : Performed p c choice w r w')
    (hc : c.quiet = true) :
    w'.world.secret = w.world.secret ∧ readBack c r = none := by
  cases c with
  | existsSync file =>
    rw [handle_existsSync h.handled]
    exact ⟨rfl, rfl⟩
  | run command =>
    refine ⟨handle_reads ?_ h.handled, ?_⟩
    all_goals cases command <;> first | rfl | cases hc

theorem Performed.getSecret {r : Option Secret} (h : Performed p (.run .getSecret) choice w r w') :
    w'.world.secret = w.world.secret ∧ ∀ secret, r = some secret → w.world.secret = some secret := by
  refine ⟨handle_reads rfl h.handled, fun secret hr => ?_⟩
  subst hr
  exact congrArg Prod.fst (handle_some h.handled)

/-- A patch leaves the Secret, or adds the key to the version it names. -/
theorem Performed.patchSecret {version : JString} {value : Bytes} {r : Option Unit}
    (h : Performed p (.run (.patchSecret version value)) choice w r w') :
    w'.world.secret = w.world.secret ∨ ∃ secret entries, w.world.secret = some secret ∧
      secret.resourceVersion = version ∧ secret.data = some entries ∧
        w'.world.secret = some ⟨choice.version, some (entries.put appKey value)⟩ := by
  cases hsecret : w.world.secret with
  | none =>
    rcases handle_cases h.handled with ⟨-, hsame⟩ | hperform
    · rw [hsame, hsecret]
      exact .inl rfl
    · rw [hperform]
      simp [Host.perform, hsecret]
  | some secret =>
    rcases handle_patch hsecret h.handled with hsame | ⟨patched, hpatched, hsome⟩
    · exact .inl hsame
    · simp only [Host.patched] at hpatched
      split at hpatched
      · next hversion =>
        obtain ⟨entries, hdata, rfl⟩ := Option.map_eq_some_iff.1 hpatched
        exact .inr ⟨secret, entries, rfl, by simpa using hversion, hdata, hsome⟩
      · cases hpatched

/-- A Secret is made of the files, where there is none. -/
theorem Performed.createSecret {files : List JString} {r : Option Unit}
    (h : Performed p (.run (.createSecret files)) choice w r w') :
    w'.world.secret = w.world.secret ∨ ∃ entries : Entries, w.world.secret = none ∧
      entries.map (·.1) = files ∧ w'.world.secret = some ⟨choice.version, some entries⟩ := by
  rcases handle_cases h.handled with ⟨-, hsame⟩ | hperform
  · exact .inl (congrArg World.secret hsame)
  · rw [hperform]
    simp only [Host.perform]
    split
    · next entries hnone hentries =>
      refine .inr ⟨entries, hnone, ?_, rfl⟩
      exact files_of_mapM hentries
    · exact .inl rfl

end Calls

/-! ## The protocol -/

/-- A version tells the Secret that has it. -/
structure Inv (w : Cluster) : Prop where
  current : ∀ secret, w.world.secret = some secret → secret.resourceVersion ∈ w.versions
  seen : ∀ p secret, w.seen p = some secret → secret.resourceVersion ∈ w.versions
  same : ∀ p secret current, w.seen p = some secret → w.world.secret = some current →
    current.resourceVersion = secret.resourceVersion → current = secret
  written : ∀ p, Written (w.seen p) (w.writes p)

/-- A process leaves the records of the others. -/
def Guarantee (p : Pid) (w w' : Cluster) : Prop :=
  ∀ q, q ≠ p → w'.seen q = w.seen q ∧ w'.writes q = w.writes q

/-- A run that waits on a call has written nothing; a patch is of what it has read. -/
def Pending (p : Pid) (c : Call) (w : Cluster) : Prop :=
  w.writes p = [] ∧
    match c with
    | .run (.patchSecret version _) => ∃ secret, w.seen p = some secret ∧ truthy (secret.get appKey) = false ∧
        version = secret.resourceVersion
    | .run (.createSecret files) => files = FILES
    | _ => True

/-- Runs that only add the application's key to what they have read, or create the Secret. -/
def protocol : Protocol Pid Call Cluster where
  inv := Inv
  guarantee := Guarantee
  pending := Pending

section Protocol

variable {p : Pid} {w w' : Cluster} {choice : Choice} {c : Call} {r : c.Ret}

theorem guarantee_record {version : JString} {read : Option Secret} {world : World} :
    Guarantee p w (w.record p version read world) := by
  intro q hq
  constructor
  · simp only [Cluster.record]
    split
    · exact Function.update_of_ne hq ..
    · rfl
  · simp only [Cluster.record]
    split
    · rfl
    · exact Function.update_of_ne hq ..

/-- A call that leaves the Secret, and what it read of it, leave the invariant. -/
theorem Performed.inv_of_same (h : Performed p c choice w r w') (hinv : Inv w) (hpending : w.writes p = [])
    (hsame : w'.world.secret = w.world.secret)
    (hread : ∀ secret, readBack c r = some secret → w.world.secret = some secret) :
    Inv w' ∧ w'.writes = w.writes := by
  have hwrites : w'.writes = w.writes := by
    rw [h.record]
    exact if_pos hsame
  have hseen : ∀ q secret, w'.seen q = some secret →
    w.seen q = some secret ∨ w.world.secret = some secret := by
    intro q secret hq
    rw [h.record] at hq
    simp only [Cluster.record] at hq
    split at hq
    · by_cases hqp : q = p
      · subst hqp
        rw [Function.update_self] at hq
        exact .inr (hread secret hq)
      · rw [Function.update_of_ne hqp] at hq
        exact .inl hq
    · exact .inl hq
  have hversions : w'.versions = choice.version :: w.versions := by rw [h.record]; rfl
  refine ⟨⟨fun secret hsecret => ?_, fun q secret hq => ?_, fun q secret current hq hcurrent hversion => ?_,
    fun q => ?_⟩, hwrites⟩
  · rw [hversions]
    exact .tail _ (hinv.current secret (hsame ▸ hsecret))
  · rw [hversions]
    rcases hseen q secret hq with hq | hq
    · exact .tail _ (hinv.seen q secret hq)
    · exact .tail _ (hinv.current secret hq)
  · rw [hsame] at hcurrent
    rcases hseen q secret hq with hq | hq
    · exact hinv.same q secret current hq hcurrent hversion
    · exact Option.some.inj (hcurrent.symm.trans hq)
  · rw [hwrites]
    by_cases hqp : q = p
    · subst hqp
      rw [hpending]
      exact .untouched _
    · have hleft : w'.seen q = w.seen q := by
        rw [h.record]
        exact (guarantee_record q hqp).1
      rw [hleft]
      exact hinv.written q

/-- A call that writes a Secret of a new version keeps the invariant, if that is a
change that a run may make. -/
theorem Performed.inv_of_write (h : Performed p c choice w r w') (hinv : Inv w) (hpending : w.writes p = [])
    {data : Option Entries} (hsecret : w'.world.secret = some ⟨choice.version, data⟩)
      (hread : readBack c r = none)
    (hwritten : Written (w.seen p) [(w.world.secret, some ⟨choice.version, data⟩)]) : Inv w' := by
  have hchanged : ¬ w'.world.secret = w.world.secret := fun he =>
    h.fresh (hinv.current ⟨choice.version, data⟩ (he.symm.trans hsecret))
  have hseen : w'.seen = w.seen := by
    rw [h.record, hread]
    rfl
  have hversions : w'.versions = choice.version :: w.versions := by rw [h.record]; rfl
  have hwrites : w'.writes = Function.update w.writes p [(w.world.secret, w'.world.secret)] := by
    rw [h.record]
    refine (if_neg hchanged).trans ?_
    rw [hpending]
    rfl
  refine ⟨fun secret hs => ?_, fun q secret hq => ?_, fun q secret current hq hcurrent hversion => ?_,
    fun q => ?_⟩
  · rw [hsecret] at hs
    cases hs
    rw [hversions]
    exact .head _
  · rw [hversions]
    exact .tail _ (hinv.seen q secret (hseen ▸ hq))
  · rw [hsecret] at hcurrent
    cases hcurrent
    have hmem := hinv.seen q secret (hseen ▸ hq)
    rw [← hversion] at hmem
    exact absurd hmem h.fresh
  · rw [hseen, hwrites]
    by_cases hqp : q = p
    · subst hqp
      rw [Function.update_self, hsecret]
      exact hwritten
    · rw [Function.update_of_ne hqp]
      exact hinv.written q

/-- **A call of a run keeps the invariant.** -/
theorem inv_perform (hinv : Inv w) (hpending : Pending p c w)
    (hperform : perform p c choice w = some (r, w')) :
    Inv w' := by
  have h := perform_eq_some hperform
  by_cases hquiet : c.quiet = true
  · obtain ⟨hsame, hread⟩ := h.secret_of_quiet hquiet
    exact (h.inv_of_same hinv hpending.1 hsame fun secret hs => by rw [hread] at hs; cases hs).1
  · cases c with
    | existsSync => exact absurd rfl hquiet
    | run command =>
      cases command with
      | getNamespace | getSecretName | secretsMjs | readFileSync => exact absurd rfl hquiet
      | getSecret =>
        obtain ⟨hsame, hread⟩ := h.getSecret
        exact (h.inv_of_same hinv hpending.1 hsame hread).1
      | patchSecret version value =>
        obtain ⟨secret, hseen, habsent, rfl⟩ := hpending.2
        rcases h.patchSecret with hsame | ⟨current, entries, hcurrent, hversion, hdata, hsome⟩
        · exact (h.inv_of_same hinv hpending.1 hsame nofun).1
        · obtain rfl := hinv.same p secret current hseen hcurrent hversion
          refine h.inv_of_write hinv hpending.1 hsome rfl ?_
          rw [hseen, hcurrent]
          exact .added choice.version hdata habsent
      | createSecret files =>
        obtain rfl : files = FILES := hpending.2
        rcases h.createSecret with hsame | ⟨entries, hnone, hfiles, hsome⟩
        · exact (h.inv_of_same hinv hpending.1 hsame nofun).1
        · refine h.inv_of_write hinv hpending.1 hsome rfl ?_
          rw [hnone]
          exact .created _ choice.version hfiles

end Protocol

/-! ## A run, among the others -/

/-- A process verified by itself, with the others and other writers around it. -/
def Verified {α : Type} (p : Pid) (A : Cluster → Prop) (m : Js α) (Q : α → Cluster → Prop) : Prop :=
  Triple protocol machine always p (fun _ => A) m (fun a _ => Q a) fun _ _ _ => True

section Verified

variable {p : Pid}

/-- What speaks of a process's own record is stable. -/
theorem stable_record {B : Option Secret → List (Option Secret × Option Secret) → Prop} :
    protocol.Stable machine always p fun w => B (w.seen p) (w.writes p) := by
  rintro w w' ⟨-, -, ⟨q, hq, hguarantee⟩ | ⟨e, henv, -⟩⟩ hB
  · obtain ⟨hseen, hwrites⟩ := hguarantee p (Ne.symm hq)
    rw [hseen, hwrites]
    exact hB
  · cases e with
    | put secret =>
      simp only [machine, env] at henv
      split at henv
      · cases henv
      · cases henv
        exact hB
    | delete =>
      cases henv
      exact hB
    | files =>
      cases henv
      exact hB

/-- A run that has written nothing, and read what `B` says. -/
def Unwritten (p : Pid) (B : Option Secret → Prop) (w : Cluster) : Prop := B (w.seen p) ∧ w.writes p = []

theorem stable_unwritten {B : Option Secret → Prop} : protocol.Stable machine always p (Unwritten p B) :=
  stable_record (B := fun seen writes => B seen ∧ writes = [])

theorem Performed.unwritten_of_quiet {c : Call} {choice : Choice} {w w' : Cluster} {r : c.Ret}
    {B : Option Secret → Prop} (h : Performed p c choice w r w') (hquiet : c.quiet = true)
      (hB : Unwritten p B w) :
    Unwritten p B w' := by
  obtain ⟨hsame, hread⟩ := h.secret_of_quiet hquiet
  have hrecord := h.record
  rw [hread] at hrecord
  rw [hrecord, Unwritten, Cluster.record, if_pos hsame]
  exact hB

/-- Programs of quiet calls change nothing that is recorded. -/
theorem verified_quiet {α : Type} {m : Js α} (hm : m.Calls (fun c => c.quiet = true) true)
    {B : Option Secret → Prop} :
    Verified p (Unwritten p B) m fun _ => Unwritten p B := by
  have hcalls : Triple protocol machine always p (fun _ => Unwritten p B) m (fun _ _ => Unwritten p B)
      fun _ _ => Unwritten p B := by
    refine Triple.calls hm (fun _ => stable_unwritten) (fun h => by cases h) fun c _ w hquiet hinv hB => ?_
    have hpending : Pending p c w := by
      refine ⟨hB.2, ?_⟩
      cases c with
      | existsSync => trivial
      | run command => cases command <;> trivial
    refine ⟨hpending, fun choice r w' hperform _ => ?_⟩
    have h := perform_eq_some hperform
    refine ⟨inv_perform hinv hpending hperform, ?_, h.unwritten_of_quiet hquiet hB⟩
    rw [h.record]
    exact guarantee_record
  exact Triple.conseq hcalls (fun _ _ _ hB => hB) (fun _ _ _ hB => hB) fun _ _ _ _ => trivial

/-- The last call of a run, which writes. -/
theorem verified_write {command : Command} {B : Option Secret → Prop}
    (hpending : ∀ w, Unwritten p B w → Pending p (.run command) w) :
    Verified p (Unwritten p B) (run command) fun _ _ => True := by
  refine Triple.bind (Q := fun _ _ _ => True) (Triple.make (fun _ => stable_unwritten) fun _ w hinv hB => ?_)
    fun answer => ?_
  · refine ⟨hpending w hB, fun choice r w' hperform _ =>
      ⟨inv_perform hinv (hpending w hB) hperform, ?_, trivial⟩⟩
    rw [(perform_eq_some hperform).record]
    exact guarantee_record
  · cases answer with
    | some a => exact Triple.pure a fun _ _ _ => trivial
    | none => exact Triple.throw _ fun _ _ _ => trivial

theorem verified_getSecret : Verified p (Unwritten p fun _ => True) (run .getSecret)
    fun secret => Unwritten p (· = some secret) := by
  refine Triple.bind
    (Q := fun answer _ => Unwritten p fun seen => ∀ secret, answer = some secret → seen = some secret)
    (Triple.make (fun _ => stable_unwritten) fun _ w hinv hB => ?_) fun answer => ?_
  · have hpending : Pending p (.run .getSecret) w := ⟨hB.2, trivial⟩
    refine ⟨hpending, fun choice r w' hperform _ => ?_⟩
    have h := perform_eq_some hperform
    obtain ⟨hsame, hread⟩ := h.getSecret
    refine ⟨inv_perform hinv hpending hperform, ?_, fun secret hr => ?_, ?_⟩
    · rw [h.record]
      exact guarantee_record
    · rw [h.record, hr]
      exact Function.update_self ..
    · rw [(h.inv_of_same hinv hB.2 hsame hread).2]
      exact hB.2
  · cases answer with
    | some a => exact Triple.pure a fun _ _ hB => ⟨hB.1 a rfl, hB.2⟩
    | none => exact Triple.throw _ fun _ _ _ => trivial

/-! ## The program -/

theorem calls_run {command : Command} (h : (Call.run command).quiet = true) :
    (run command).Calls (fun c => c.quiet = true) true :=
  .bind (.make h) fun answer => by
    cases answer with
    | some a => exact .pure a
    | none => exact .throw _

theorem calls_checkFiles : ∀ files : List JString, (checkFiles files).Calls (fun c => c.quiet = true) true
  | [] => .pure ()
  | _ :: files => .bind (.make rfl) fun _ => .bind (.throwIf _ _) fun _ => .bind (calls_run rfl) fun _ =>
    .bind (.throwIf _ _) fun _ => calls_checkFiles files

theorem verified_createSecret : Verified p (Unwritten p fun _ => True) createSecret fun _ _ => True :=
  Triple.bind (verified_quiet (calls_run rfl)) fun _ =>
    Triple.bind (verified_quiet (calls_checkFiles FILES)) fun _ =>
      verified_write fun _ hB => ⟨hB.2, rfl⟩

theorem verified_addApplicationKey {bufferText : Bytes → JString} {environment : JString} {secret : Secret}
    (habsent : truthy (secret.get appKey) = false) :
    Verified p (Unwritten p (· = some secret))
      (addApplicationKey bufferText environment secret) fun _ _ => True :=
  Triple.bind (verified_quiet (.make rfl)) fun _ =>
    Triple.bind (verified_quiet (.throwIf _ _)) fun _ =>
      Triple.bind (verified_quiet (calls_run rfl)) fun _ =>
        Triple.bind (verified_quiet (calls_run rfl)) fun _ =>
          Triple.bind (verified_quiet (.throwIf _ _)) fun _ =>
            Triple.bind (verified_quiet (.throwIf _ _)) fun _ =>
              verified_write fun _ hB => ⟨hB.2, secret, hB.1, habsent, rfl⟩

theorem verified_provisionSecret {bufferText : Bytes → JString} {environment : JString} :
    Verified p (Unwritten p fun _ => True) (provisionSecret bufferText environment) fun _ _ => True := by
  refine Triple.bind (verified_quiet (calls_run rfl)) fun _ =>
    Triple.bind (verified_quiet (calls_run rfl)) fun existing => ?_
  cases existing with
  | true =>
    refine Triple.bind verified_getSecret fun secret => ?_
    cases habsent : truthy (secret.get appKey) with
    | true => exact Triple.pure () fun _ _ _ => trivial
    | false => exact verified_addApplicationKey habsent
  | false => exact verified_createSecret

end Verified

/-! ## Pools -/

/-- A process that starts has read and written nothing. -/
theorem Inv.start {w : Cluster} (hinv : Inv w) (p : Pid) :
    Inv { w with
      seen := Function.update w.seen p none
      writes := Function.update w.writes p [] } := by
  refine ⟨hinv.current, fun q secret hq => ?_, fun q secret current hq => ?_, fun q => ?_⟩
  all_goals by_cases hqp : q = p
  · subst hqp
    simp at hq
  · exact hinv.seen q secret (by simpa [hqp] using hq)
  · subst hqp
    simp at hq
  · exact hinv.same q secret current (by simpa [hqp] using hq)
  · subst hqp
    simpa using Written.untouched none
  · simpa [hqp] using hinv.written q

/-- Another writer's Secret is of a new version, which no run has read. -/
theorem Inv.env {e : Env} {w w' : Cluster} (hinv : Inv w) (h : env e w = some w') : Inv w' := by
  cases e with
  | put secret =>
    simp only [Credentials.env] at h
    split at h
    · cases h
    · next hfresh =>
      cases h
      refine ⟨fun current hcurrent => ?_, fun q read hq => .tail _ (hinv.seen q read hq),
        fun q read current hq hcurrent hversion => ?_, hinv.written⟩
      · cases hcurrent
        exact .head _
      · cases hcurrent
        have hmem := hinv.seen q read hq
        rw [← hversion] at hmem
        exact absurd hmem hfresh
  | delete =>
    cases h
    exact ⟨nofun, hinv.seen, fun _ _ _ _ => nofun, hinv.written⟩
  | files =>
    cases h
    exact ⟨hinv.current, hinv.seen, hinv.same, hinv.written⟩

theorem environment (bufferText : Bytes → JString) (name : JString) :
    protocol.Environment machine always (program bufferText name) fun _ _ _ => True where
  start p _ w w' hinv h := by
    cases h
    refine ⟨hinv.start p, fun q hq => by simp [hq], ?_⟩
    exact Triple.script verified_provisionSecret (hinv.start p) ⟨trivial, by simp⟩ fun _ _ _ => trivial
  stop p w hinv := ⟨hinv, fun _ _ => ⟨rfl, rfl⟩⟩
  env _ _ _ hinv h _ := hinv.env h
  stable _ _ := .const

theorem Initial.inv {w : Cluster} (h : Initial w) : Inv w where
  current := h.version
  seen p secret hp := by
    rw [h.seen] at hp
    cases hp
  same p secret current hp := by
    rw [h.seen] at hp
    cases hp
  written p := by
    rw [h.writes]
    exact .untouched _

/-- What a run writes takes no key with a value away, and changes none. -/
theorem Written.get_eq {seen before after : Option Secret} {key : JString} {value : Bytes}
    (h : Written seen [(before, after)]) (hvalue : value ≠ [])
      (hbefore : before.bind (·.get key) = some value) :
    after.bind (·.get key) = some value := by
  cases h with
  | added version hdata habsent =>
    have hne : key ≠ appKey := fun he => by
      subst he
      rw [Option.bind_some] at hbefore
      rw [hbefore, truthy] at habsent
      simp [hvalue] at habsent
    rw [Option.bind_some, Secret.get, hdata, Option.bind_some] at hbefore
    rw [Option.bind_some, Secret.get, Option.bind_some, Entries.get_put_of_ne hne, hbefore]
  | created version hfiles => cases hbefore

section Pools

variable {bufferText : Bytes → JString} {name : JString} {w : Cluster}
  {s : Pool Pid Call Call.Ret Cluster (Except Failure Unit × Unit)}

/-- **What runs do to the Secret**, whatever they and other writers do in
between: each has left it alone, or added the application's key to the version
that it read, or made a whole one where there was none; and no call of a run
takes away or changes what a key holds. -/
theorem provisionSecret_writes (h₀ : Initial w)
    (h : Reachable machine (program bufferText name) always w s) (p : Pid) :
    Written (s.world.seen p) (s.world.writes p) ∧
    ∀ c next choice r w', s.procs p = some (.call c next) → perform p c choice s.world = some (r, w') →
      ∀ key value, value ≠ [] → s.world.world.get key = some value → w'.world.get key = some value := by
  have hsound := Protocol.sound (environment bufferText name) h₀.inv h
  refine ⟨hsound.inv.written p, fun c next choice r w' hp hperform key value hvalue hkey => ?_⟩
  have hpending : Pending p c s.world := hsound.pending hp
  have hinv' : Inv w' := inv_perform hsound.inv hpending hperform
  have hrecord := (perform_eq_some hperform).record
  by_cases hsame : w'.world.secret = s.world.world.secret
  · rw [World.get, hsame]
    exact hkey
  · have hwrites : w'.writes p = [(s.world.world.secret, w'.world.secret)] := by
      rw [hrecord]
      simp only [Cluster.record, if_neg hsame, Function.update_self, hpending.1, List.nil_append]
    have hwritten := hinv'.written p
    rw [hwrites] at hwritten
    exact hwritten.get_eq hvalue hkey

/-- A Secret of an older release, and its credentials. -/
def restored : Cluster where
  world.secret := some ⟨[0], some [(operatorKey, [112])]⟩
  world.files _ := some (List.replicate 32 97)
  versions := [[0]]
  seen _ := none
  writes _ := []

/-- The calls of a process, from the n-th version on. -/
def calls (p : Pid) (n count : Nat) : List (Event Pid Unit Choice Env) :=
  (List.range count).map fun i =>
    .act p ⟨.answered, (true, fun _ => some (List.replicate 32 97)), [UInt16.ofNat (n + i)]⟩

/-- Two runs read the same version, and both go on to their patch. -/
def bothRead : List (Event Pid Unit Choice Env) :=
  [.start 0 (), .start 1 ()] ++ calls 0 1 3 ++ calls 1 4 3 ++ calls 0 7 4 ++ calls 1 11 4

theorem provisionSecret_writes_sample : ∃ s,
    Pool.run machine (program (·.map UInt8.toUInt16) []) always ⟨restored, fun _ => none⟩ bothRead = some s ∧
      Written (s.world.seen 0) (s.world.writes 0) ∧
        (s.world.writes 0).length = 1 ∧ s.world.writes 1 = [] := by
  have hrun : ((Pool.run machine (program (·.map UInt8.toUInt16) []) always
      ⟨restored, fun _ => none⟩ bothRead).map fun s =>
        ((s.world.writes 0).length, s.world.writes 1)) = some (1, []) := by decide +kernel
  obtain ⟨s, hs, hw⟩ := Option.map_eq_some_iff.1 hrun
  have h₀ : Initial restored := by
    refine ⟨fun secret hsecret => ?_, fun _ => rfl, fun _ => rfl⟩
    cases hsecret
    exact .head _
  exact ⟨s, hs, (provisionSecret_writes h₀ (Pool.run_sound hs) 0).1, (Prod.mk.inj hw).1, (Prod.mk.inj hw).2⟩

end Pools

end CartyxInfra.Credentials
