/-
Runs of `secrets.mjs` one after another, each of which may be killed between
any two of its calls.

What is there is kept by every run, however it ends. Where `tls.p12` is there,
all else is, readable, except for two gaps: before the mode of the archive is
set, and before the application's credential of an older set is written. A run
that is killed in neither leaves what the next one can go by.
-/
import CartyxInfra.Lib.Interruption
import CartyxInfra.Credentials.Secrets

namespace CartyxInfra.Credentials.Secrets

open JString

/-! ## What is on the disk -/

/-- What a credential file holds when it has been written. -/
inductive Complete (openssl : Openssl) : JString → Bytes → Prop
  | key {key : JString} (hkey : key ∈ KEYS) (random : RandomBytes) : Complete openssl key (hexLine random)
  | certificate (config : Bytes) (seed : Nat) : Complete openssl tlsCrt (openssl.req config seed).2
  | archive (key crt password : Bytes) (seed : Nat) :
      Complete openssl tlsP12 (openssl.pkcs12 key crt password seed)

/-- A credential file is there, is complete, and can be read by the containers. -/
def Deployed (openssl : Openssl) (disk : Disk) (name : JString) : Prop :=
  ∃ file, disk.file name = some file ∧ file.content ≠ [] ∧ Complete openssl name file.content ∧
    file.mode = 0o644

/-- A credential file is there, and no containers can use it. -/
def Broken (disk : Disk) (name : JString) : Prop :=
  ∃ file, disk.file name = some file ∧ (file.content = [] ∨ file.mode ≠ 0o644)

/-- What has been there is there. -/
def Kept (disk disk' : Disk) : Prop := ∀ name file, disk.file name = some file → disk'.file name = some file

/-- A set of credentials from before there was one for the application. -/
structure Older (openssl : Openssl) (disk : Disk) : Prop where
  deployed : ∀ name ∈ FILES, name ≠ appKey → Deployed openssl disk name
  absent : disk.file appKey = none

/-- Where runs begin: no credentials, or a whole set from before the application had its own. -/
def Initial (openssl : Openssl) (disk : Disk) : Prop := disk.directory = none ∨ Older openssl disk

/-- What an archive stands for. -/
def Marked (openssl : Openssl) (disk : Disk) : Prop :=
  (disk.file tlsP12).isSome → (∀ name ∈ FILES, name ≠ appKey → Deployed openssl disk name) ∧
    (disk.file appKey = none ∨ Deployed openssl disk appKey)

/-! ## Runs -/

/-- A run, and after how many of its calls it is killed, if it makes more. -/
structure Attempt where
  random : JString → RandomBytes
  seed : Nat
  calls : Nat

variable (openssl : Openssl) (cwd environment : JString)

/-- What is left of the run, and the disk. -/
def Attempt.run (attempt : Attempt) (disk : Disk) :
    Script Call Call.Ret (Except Failure Unit × Unit) × Disk :=
  ((secretsMjs attempt.random cwd environment).script ()).advance
    (handle openssl attempt.seed) attempt.calls disk

/-- The disk after some runs, one after another. -/
def after (disk : Disk) : List Attempt → Disk
  | [] => disk
  | attempt :: rest => after (attempt.run openssl cwd environment disk).2 rest

/-- The call before which a run leaves a set that the next takes for a whole one. -/
def gap : Call → Disk → Bool
  | .chmodSync _ _, _ => true
  | .writeSync name _, disk => name == appKey && (disk.file tlsP12).isSome
  | _, _ => false

/-- The run is killed in a gap. -/
def Attempt.torn (attempt : Attempt) (disk : Disk) : Bool :=
  match attempt.run openssl cwd environment disk with
  | (.call c _, disk') => gap c disk'
  | _ => false

/-- No run is killed in a gap. -/
def Untorn : Disk → List Attempt → Prop
  | _, [] => True
  | disk, attempt :: rest => attempt.torn openssl cwd environment disk = false ∧
      Untorn (attempt.run openssl cwd environment disk).2 rest

/-! ## The rules -/

section Rules

variable {openssl cwd environment} {disk w : Disk} {seed : Nat}

/-- Where a run from a disk may be killed. -/
def Kill (openssl : Openssl) (disk : Disk) (c : Call) (w : Disk) : Prop :=
  Kept disk w ∧ if gap c w then ∃ name ∈ FILES, Broken w name else Marked openssl disk → Marked openssl w

/-- Where it exits with 0. -/
def Exit (openssl : Openssl) (disk w : Disk) : Prop :=
  Kept disk w ∧ (Marked openssl disk → ∀ name ∈ FILES, Deployed openssl w name)

/-- Where it throws. -/
def Fail (openssl : Openssl) (disk w : Disk) : Prop := Kept disk w ∧ (Marked openssl disk → Marked openssl w)

/-- A part of a run, from where it has come. -/
abbrev Verified {α : Type} (openssl : Openssl) (seed : Nat) (disk : Disk) (m : Js α) (Q : α → Disk → Prop)
    (w : Disk) : Prop :=
  Program.Holds (handle openssl seed) (Kill openssl disk) (fun a _ => Q a)
    (fun _ _ => Fail openssl disk) m () w

theorem Fail.kill {c : Call} (h : Fail openssl disk w) (hgap : gap c w = false) : Kill openssl disk c w := by
  rw [Kill, hgap]
  exact h

theorem kill_of_gap {c : Call} {name : JString} (hkept : Kept disk w) (hgap : gap c w = true)
    (hname : name ∈ FILES)
    (hbroken : Broken w name) : Kill openssl disk c w := by
  rw [Kill, hgap]
  exact ⟨hkept, name, hname, hbroken⟩

theorem verified_bind {α β : Type} {m : Js α} {f : α → Js β} {Q : β → Disk → Prop}
    (h : Verified openssl seed disk m (fun a w => Verified openssl seed disk (f a) Q w) w) :
    Verified openssl seed disk (m >>= f) Q w := Program.Holds.bind h

theorem verified_existsSync {name : JString} {Q : Bool → Disk → Prop} (hfail : Fail openssl disk w)
    (h : Q (w.file name).isSome w) : Verified openssl seed disk (ask (.existsSync name)) Q w :=
  .make (hfail.kill rfl) h

theorem verified_existsDirectory {Q : Bool → Disk → Prop} (hfail : Fail openssl disk w)
    (h : Q w.directory.isSome w) : Verified openssl seed disk (ask .existsDirectory) Q w :=
  .make (hfail.kill rfl) h

theorem verified_run {c : Call} {Q : Unit → Disk → Prop} (hkill : Kill openssl disk c w)
    (hsucceeds : (handle openssl seed c w).1 = true → Q () (handle openssl seed c w).2)
    (hfails : (handle openssl seed c w).1 = false → Fail openssl disk (handle openssl seed c w).2) :
    Verified openssl seed disk (run c) Q w := by
  refine verified_bind (.make hkill ?_)
  cases h : (handle openssl seed c w).1 with
  | true => exact .pure (hsucceeds h)
  | false => exact .throw (hfails h)

/-- The files are as they were. -/
theorem Fail.of_file (h : ∀ name, w.file name = disk.file name) : Fail openssl disk w := by
  refine ⟨fun name file hfile => (h name).trans hfile, fun hmarked hsome => ?_⟩
  simp only [Deployed, h] at hsome ⊢
  exact hmarked hsome

/-! ## A set that is there -/

/-- A call that fails changes nothing. -/
theorem handle_openSync_false {name : JString} {wx : Bool} {mode : Nat}
    (h : (handle openssl seed (.openSync name wx mode) w).1 = false) :
    (handle openssl seed (.openSync name wx mode) w).2 = w := by
  simp only [handle] at h ⊢
  split at h
  · next hopen => rw [if_pos hopen]
  · cases h

/-- A key that a run writes. -/
theorem deployed_key {key : JString} {random : RandomBytes} (hkey : key ∈ KEYS)
    (h : w.file key = some ⟨hexLine random, 0o644⟩) : Deployed openssl w key :=
  ⟨_, h, by simp [hexLine], .key hkey random, rfl⟩

theorem Deployed.congr {name : JString} (h : Deployed openssl disk name)
    (hfile : w.file name = disk.file name) :
    Deployed openssl w name := by
  simp only [Deployed, hfile]
  exact h

/-- A key is written: its file is there, empty, and then complete, and no other file changes. -/
theorem verified_writeKey {random : JString → RandomBytes} {key : JString} {Q : Unit → Disk → Prop}
    (hkey : key ∈ KEYS)
    (hfail : Fail openssl disk w)
    (hopened : ∀ opened : Disk, w.file key = none → (∀ name, name ≠ key → opened.file name = w.file name) →
      opened.file key = some ⟨[], 0o644⟩ → Kill openssl disk (.writeSync key (hexLine (random key))) opened)
    (hwritten : ∀ written : Disk, w.file key = none → (∀ name, name ≠ key → written.file name = w.file name) →
      Deployed openssl written key → Q () written) :
    Verified openssl seed disk (writeKey random key) Q w := by
  refine verified_bind (verified_run (hfail.kill rfl) (fun hopen => ?_) fun hopen => ?_)
  swap
  · rw [handle_openSync_false hopen]
    exact hfail
  obtain ⟨habsent, hempty⟩ := handle_openSync hopen
  have hother : ∀ name, name ≠ key →
    (handle openssl seed (.openSync key true 0o644) w).2.file name = w.file name :=
    fun name hne => handle_file (by simpa [Call.targets] using hne)
  generalize (handle openssl seed (.openSync key true 0o644) w).2 = opened at hempty hother
  obtain ⟨hsucceeds, hcontent⟩ :=
    handle_writeSync openssl seed (hexLine (random key)) hempty
  refine verified_run (hopened opened habsent hother hempty) (fun _ => ?_) fun hwrite => ?_
  · refine hwritten _ habsent (fun name hne => ?_) (deployed_key hkey hcontent)
    exact (handle_file (by simpa [Call.targets] using hne)).trans (hother name hne)
  · rw [hsucceeds] at hwrite
    cases hwrite

/-- A file is made that was not there. -/
theorem kept_of_other {name : JString} (habsent : disk.file name = none)
    (hother : ∀ name', name' ≠ name → w.file name' = disk.file name') : Kept disk w := by
  intro name' file h
  have hne : name' ≠ name := by
    rintro rfl
    rw [habsent] at h
    cases h
  rw [hother name' hne, h]

theorem verified_reuse {random : JString → RandomBytes} (hfile : ∀ name, w.file name = disk.file name)
    (harchive : (disk.file tlsP12).isSome) :
    Verified openssl seed disk (reuse random) (fun _ => Exit openssl disk) w := by
  have hfail : Fail openssl disk w := .of_file hfile
  have hdeployed : Marked openssl disk → ∀ name ∈ FILES, name ≠ appKey → Deployed openssl w name :=
    fun hmarked name hname hne => ((hmarked harchive).1 name hname hne).congr (hfile name)
  refine verified_bind (verified_existsSync hfail ?_)
  cases hpresent : (w.file appKey).isSome with
  | true =>
    refine .pure ⟨hfail.1, fun hmarked name hname => ?_⟩
    by_cases happ : name = appKey
    · rcases (hmarked harchive).2 with habsent | happlication
      · rw [hfile, habsent] at hpresent
        cases hpresent
      · exact happ ▸ happlication.congr (hfile appKey)
    · exact hdeployed hmarked name hname happ
  | false =>
    have habsent : disk.file appKey = none := by
      rw [← hfile]
      simpa using hpresent
    have hkept : ∀ disk' : Disk, (∀ name, name ≠ appKey → disk'.file name = w.file name) →
        Kept disk disk' := fun _ hother =>
      kept_of_other habsent fun name hne => (hother name hne).trans (hfile name)
    refine verified_writeKey (by decide) hfail
      (fun opened _ hother hempty => ?_) fun written _ hother happlication => ?_
    · -- the gap of an older set
      have hgap : gap (.writeSync appKey (hexLine (random appKey))) opened = true := by
        simp [gap, hother tlsP12 (by decide), hfile, harchive]
      exact kill_of_gap (hkept opened hother) hgap (by decide) ⟨_, hempty, .inl rfl⟩
    · refine ⟨hkept written hother, fun hmarked name hname => ?_⟩
      by_cases happ : name = appKey
      · exact happ ▸ happlication
      · exact (hdeployed hmarked name hname happ).congr (hother name happ)

/-! ## A set that is made -/

/-- What a run has made so far, and what it has yet to. -/
structure Making (openssl : Openssl) (w : Disk) (made left : List JString) : Prop where
  made : ∀ name ∈ made, Deployed openssl w name
  left : ∀ name ∈ left, w.file name = none

theorem kept_of_none (hdirectory : disk.directory = none) : Kept disk w := fun name file hfile => by
  simp [Disk.file, hdirectory] at hfile

/-- Before there is an archive, nothing is marked. -/
theorem Fail.of_none (hdirectory : disk.directory = none) (habsent : w.file tlsP12 = none) :
    Fail openssl disk w :=
  ⟨kept_of_none hdirectory, fun _ hsome => by rw [habsent] at hsome; cases hsome⟩

theorem Making.fail {made left : List JString} (h : Making openssl w made left)
    (hdirectory : disk.directory = none)
    (hleft : tlsP12 ∈ left) : Fail openssl disk w := .of_none hdirectory (h.left tlsP12 hleft)

/-- A file is changed that is neither. -/
theorem Making.of_other {made left : List JString} {w' : Disk} {name : JString}
    (h : Making openssl w made left)
    (hother : ∀ name', name' ≠ name → w'.file name' = w.file name') (hmade : name ∉ made)
      (hleft : name ∉ left) :
    Making openssl w' made left where
  made name' hmem := (h.made name' hmem).congr (hother name' fun he => hmade (he ▸ hmem))
  left name' hmem := (hother name' fun he => hleft (he ▸ hmem)).trans (h.left name' hmem)

theorem Deployed.ne_none {name : JString} (h : Deployed openssl w name) : w.file name ≠ none := by
  obtain ⟨file, hfile, -⟩ := h
  simp [hfile]

theorem verified_writeKeys {random : JString → RandomBytes} (hdirectory : disk.directory = none) :
    ∀ {keys made : List JString} {w : Disk},
      (∀ key ∈ keys, key ∈ KEYS) → Making openssl w made [tlsCrt, tlsP12] →
      Verified openssl seed disk (writeKeys random keys)
        (fun _ w => Making openssl w (keys.reverse ++ made) [tlsCrt, tlsP12]) w
  | [], made, w, _, h => .pure h
  | key :: keys, made, w, hkeys, h => by
    have hkey : key ∈ KEYS := hkeys key (.head _)
    have hleft : key ∉ [tlsCrt, tlsP12] := (show ∀ key ∈ KEYS, key ∉ [tlsCrt, tlsP12] by decide) key hkey
    have hmade : w.file key = none → key ∉ made := fun habsent hmem => (h.made key hmem).ne_none habsent
    refine verified_bind (verified_writeKey hkey (h.fail hdirectory (by simp))
      (fun opened habsent hother _ => ?_)
      fun written habsent hother hdeployed => ?_)
    · have hmaking := h.of_other hother (hmade habsent) hleft
      exact (hmaking.fail hdirectory (by simp)).kill (by simp [gap, hmaking.left tlsP12 (by simp)])
    · have hmaking := h.of_other hother (hmade habsent) hleft
      have hcons : Making openssl written (key :: made) [tlsCrt, tlsP12] :=
        ⟨List.forall_mem_cons.2 ⟨hdeployed, hmaking.made⟩, hmaking.left⟩
      rw [List.reverse_cons, List.append_assoc, List.singleton_append]
      exact verified_writeKeys hdirectory (fun key hmem => hkeys key (.tail _ hmem)) hcons

/-- A call that writes none of these files. -/
theorem verified_run_making {made left : List JString} {c : Call} (hdirectory : disk.directory = none)
    (h : Making openssl w made left) (hleft : tlsP12 ∈ left) (hgap : gap c w = false)
      (hc : ∀ name ∈ c.targets, name ∉ made ∧ name ∉ left) :
    Verified openssl seed disk (run c) (fun _ w => Making openssl w made left) w := by
  have hmaking : Making openssl (handle openssl seed c w).2 made left :=
    ⟨fun name hmem => (h.made name hmem).congr (handle_file fun htarget => (hc name htarget).1 hmem),
      fun name hmem => (handle_file fun htarget => (hc name htarget).2 hmem).trans (h.left name hmem)⟩
  exact verified_run ((h.fail hdirectory hleft).kill hgap) (fun _ => hmaking) fun _ =>
    hmaking.fail hdirectory hleft

theorem verified_opensslReq {made : List JString} (hdirectory : disk.directory = none)
    (h : Making openssl w made [tlsCrt, tlsP12]) (hmade : tlsKey ∉ made ∧ tlsCrt ∉ made) :
    Verified openssl seed disk (run .opensslReq)
      (fun _ w => Making openssl w (tlsCrt :: made) [tlsP12]) w := by
  have harchive : (handle openssl seed .opensslReq w).2.file tlsP12 = none :=
    (handle_file (by decide)).trans (h.left tlsP12 (by simp))
  refine verified_run ((h.fail hdirectory (by simp)).kill rfl) (fun hsucceeds => ?_) fun _ =>
    .of_none hdirectory harchive
  obtain ⟨config, hcrt⟩ := handle_opensslReq hsucceeds (h.left tlsCrt (.head _))
  refine ⟨List.forall_mem_cons.2 ⟨⟨_, hcrt, openssl.req_ne config seed, .certificate config seed, rfl⟩,
    fun name hmem => (h.made name hmem).congr (handle_file ?_)⟩, by simpa using harchive⟩
  simp only [Call.targets, List.mem_cons, List.not_mem_nil, or_false, not_or]
  exact ⟨fun he => hmade.1 (he ▸ hmem), fun he => hmade.2 (he ▸ hmem)⟩

/-- The archive is made, readable by its owner, and then by all. -/
theorem verified_archive {made : List JString} (hdirectory : disk.directory = none)
    (h : Making openssl w made [tlsP12]) (hfiles : ∀ name ∈ FILES, name = tlsP12 ∨ name ∈ made) :
    Verified openssl seed disk (do run .opensslPkcs12; run (.chmodSync tlsP12 0o644))
      (fun _ => Exit openssl disk) w := by
  have hfail : Fail openssl disk w := h.fail hdirectory (by simp)
  refine verified_bind (verified_run (hfail.kill rfl) (fun hsucceeds => ?_) fun hfails => ?_)
  · obtain ⟨key, crt, password, harchive⟩ := handle_opensslPkcs12 hsucceeds (h.left tlsP12 (.head _))
    have hother : ∀ name, name ≠ tlsP12 → (handle openssl seed .opensslPkcs12 w).2.file name = w.file name :=
      fun name hne => handle_file (by simpa [Call.targets] using hne)
    generalize (handle openssl seed .opensslPkcs12 w).2 = archived at harchive hother
    obtain ⟨hchmod, hreadable⟩ := handle_chmodSync openssl seed 0o644 harchive
    -- the gap: the archive is there, and only its owner can read it
    have hbroken : Broken archived tlsP12 := ⟨_, harchive, .inr (by simp)⟩
    refine verified_run (kill_of_gap (kept_of_none hdirectory) rfl (by decide) hbroken)
      (fun _ => ?_) fun hno => ?_
    · refine ⟨kept_of_none hdirectory, fun _ name hname => ?_⟩
      by_cases hp12 : name = tlsP12
      · subst hp12
        exact ⟨_, hreadable, openssl.pkcs12_ne key crt password seed, .archive key crt password seed, rfl⟩
      · have hmade := h.made name ((hfiles name hname).resolve_left hp12)
        refine hmade.congr ((handle_file ?_).trans (hother name hp12))
        simpa [Call.targets] using hp12
    · rw [hchmod] at hno
      cases hno
  · have hsame : (handle openssl seed .opensslPkcs12 w).2 = w := by
      simp only [handle] at hfails ⊢
      split
      · next hkey hcrt hpassword => simp [hkey, hcrt, hpassword] at hfails
      · rfl
    rw [hsame]
    exact hfail

theorem verified_create {random : JString → RandomBytes} (hsame : w.directory = disk.directory) :
    Verified openssl seed disk (create random cwd environment) (fun _ => Exit openssl disk) w := by
  have hfile : ∀ name, w.file name = disk.file name := fun name => by rw [Disk.file, Disk.file, hsame]
  refine verified_bind (verified_existsDirectory (.of_file hfile) ?_)
  cases hfound : w.directory with
  | some directory => exact .throw (Fail.of_file hfile)
  | none =>
    have hdirectory : disk.directory = none := hsame.symm.trans hfound
    have habsent : ∀ name, w.file name = none := fun name => by rw [Disk.file, hfound]; rfl
    have hempty : Making openssl w [] [tlsCrt, tlsP12] := ⟨by simp, fun name _ => habsent name⟩
    refine verified_bind
      (Program.Holds.mono ?_ (verified_run_making hdirectory hempty (by simp) rfl (by decide)))
    intro _ _ w₁ h₁
    refine verified_bind (Program.Holds.mono ?_ (verified_writeKeys hdirectory (fun _ h => h) h₁))
    intro _ _ w₂ h₂
    refine verified_bind (verified_bind
      (Program.Holds.mono ?_ (verified_run_making hdirectory h₂ (by simp) rfl (by decide))))
    intro _ _ w₃ h₃
    have hconfig : ∀ name ∈ [opensslCnf], name ∉ KEYS.reverse ++ [] ∧ name ∉ [tlsCrt, tlsP12] := by decide
    refine Program.Holds.mono ?_ (verified_run_making hdirectory h₃ (by simp) rfl hconfig)
    intro _ _ w₄ h₄
    refine verified_bind (Program.Holds.mono ?_ (verified_opensslReq hdirectory h₄ (by decide)))
    intro _ _ w₅ h₅
    exact verified_archive hdirectory h₅ (by decide)

/-- **A run, verified**: what is there is kept wherever it is killed or ends, and
where it exits with 0 the set is whole. -/
theorem verified_secretsMjs {random : JString → RandomBytes} :
    Verified openssl seed disk (secretsMjs random cwd environment) (fun _ => Exit openssl disk) disk := by
  have hfail : ∀ {w : Disk}, w.directory = disk.directory → Fail openssl disk w := fun hsame =>
    .of_file fun name => by rw [Disk.file, Disk.file, hsame]
  unfold secretsMjs
  split
  · refine verified_bind (verified_run ((hfail rfl).kill rfl) (fun _ => ?_) fun _ => hfail rfl)
    refine verified_bind (verified_run (Fail.kill (hfail rfl) rfl) (fun _ => ?_) fun _ => hfail rfl)
    have hsame : (handle openssl seed (.chmodParent 0o700)
      (handle openssl seed .mkdirParent disk).2).2.directory =
        disk.directory := rfl
    generalize (handle openssl seed (.chmodParent 0o700)
      (handle openssl seed .mkdirParent disk).2).2 = w at hsame ⊢
    have hfile : ∀ name, w.file name = disk.file name := fun name => by rw [Disk.file, Disk.file, hsame]
    refine verified_bind (verified_existsSync (hfail hsame) ?_)
    cases harchive : (w.file tlsP12).isSome with
    | true => exact verified_reuse hfile (by rw [← hfile, harchive])
    | false => exact verified_create hsame
  · exact .throw (hfail rfl)

end Rules

/-! ## Runs, one after another -/

section Runs

variable {openssl cwd environment} {disk : Disk}

theorem Kept.refl (disk : Disk) : Kept disk disk := fun _ _ h => h

theorem Kept.trans {disk disk' disk'' : Disk} (h : Kept disk disk') (h' : Kept disk' disk'') :
    Kept disk disk'' :=
  fun name file hfile => h' name file (h name file hfile)

theorem Initial.marked (h : Initial openssl disk) : Marked openssl disk := by
  rcases h with hnone | hold
  · intro hsome
    simp [Disk.file, hnone] at hsome
  · exact fun _ => ⟨hold.deployed, .inl hold.absent⟩

/-- What is known of a run wherever it is killed or ends. -/
theorem Attempt.holds (attempt : Attempt) (openssl : Openssl) (cwd environment : JString) (disk : Disk) :
    (attempt.run openssl cwd environment disk).1.Holds
    (handle openssl attempt.seed) (Kill openssl disk)
    (Outcome (fun _ _ => Exit openssl disk) fun _ _ => Fail openssl disk)
    (attempt.run openssl cwd environment disk).2 :=
  Script.Holds.advance verified_secretsMjs

theorem Exit.fail {w : Disk} (h : Exit openssl disk w) : Fail openssl disk w :=
  ⟨h.1, fun hmarked _ => ⟨fun name hname _ => h.2 hmarked name hname, .inr (h.2 hmarked appKey (by decide))⟩⟩

/-- A run keeps what is there; killed in no gap, also what an archive stands for, and
killed in one it leaves a file broken. -/
theorem Attempt.cases (attempt : Attempt) (openssl : Openssl) (cwd environment : JString) (disk : Disk) :
    Kept disk (attempt.run openssl cwd environment disk).2 ∧
      if attempt.torn openssl cwd environment disk then
        ∃ name ∈ FILES, Broken (attempt.run openssl cwd environment disk).2 name
      else Marked openssl disk → Marked openssl (attempt.run openssl cwd environment disk).2 := by
  have hholds := attempt.holds openssl cwd environment disk
  unfold Attempt.torn
  generalize attempt.run openssl cwd environment disk = stopped at hholds ⊢
  match stopped, hholds with
  | (.call c next, w), hholds => exact hholds.1
  | (.pure (.ok (), ()), w), hholds => exact (Exit.fail hholds)
  | (.pure (.error e, ()), w), hholds => exact hholds

theorem kept_after (attempts : List Attempt) (disk : Disk) :
    Kept disk (after openssl cwd environment disk attempts) := by
  induction attempts generalizing disk with
  | nil => exact .refl disk
  | cons attempt rest ih => exact (attempt.cases openssl cwd environment disk).1.trans (ih _)

theorem marked_after (attempts : List Attempt) {disk : Disk}
    (huntorn : Untorn openssl cwd environment disk attempts) (h : Marked openssl disk) :
    Marked openssl (after openssl cwd environment disk attempts) := by
  induction attempts generalizing disk with
  | nil => exact h
  | cons attempt rest ih =>
    obtain ⟨htorn, hrest⟩ := huntorn
    have hcases := (attempt.cases openssl cwd environment disk).2
    rw [htorn] at hcases
    exact ih hrest (hcases h)

theorem Broken.not_deployed {name : JString} (h : Broken disk name) : ¬ Deployed openssl disk name := by
  obtain ⟨file, hfile, hbad⟩ := h
  rintro ⟨file', hfile', hne, -, hmode⟩
  obtain rfl := Option.some.inj (hfile.symm.trans hfile')
  exact hbad.elim hne fun h => h hmode

/-- What a run leaves that is killed in a gap, no later run mends. -/
theorem torn_broken {attempt : Attempt} (htorn : attempt.torn openssl cwd environment disk = true)
    (later : List Attempt) : ∃ name ∈ FILES, ¬ Deployed openssl
      (after openssl cwd environment (attempt.run openssl cwd environment disk).2 later) name := by
  have hcases := (attempt.cases openssl cwd environment disk).2
  rw [htorn] at hcases
  obtain ⟨name, hname, file, hfile, hbad⟩ := hcases
  have hbroken : Broken (after openssl cwd environment
    (attempt.run openssl cwd environment disk).2 later) name :=
    ⟨file, kept_after later _ name file hfile, hbad⟩
  exact ⟨name, hname, hbroken.not_deployed⟩

/-- **Runs of `secrets.mjs`, none killed in a gap**: whatever has come before, a run
that exits with 0 leaves all eight credentials there, complete and readable; and
what is there after any of the runs, later runs leave as it is. -/
theorem reruns_deployed (h₀ : Initial openssl disk) {attempts : List Attempt}
    (huntorn : Untorn openssl cwd environment disk attempts) :
    (∀ attempt : Attempt,
      (attempt.run openssl cwd environment (after openssl cwd environment disk attempts)).1 =
          .pure (.ok (), ()) →
        ∀ name ∈ FILES, Deployed openssl
          (attempt.run openssl cwd environment (after openssl cwd environment disk attempts)).2 name) ∧
    ∀ later : List Attempt, Kept (after openssl cwd environment disk attempts)
      (after openssl cwd environment (after openssl cwd environment disk attempts) later) := by
  refine ⟨fun attempt hexit => ?_, fun later => kept_after later _⟩
  have hholds := attempt.holds openssl cwd environment (after openssl cwd environment disk attempts)
  rw [hexit] at hholds
  have hdone : Exit openssl (after openssl cwd environment disk attempts)
    (attempt.run openssl cwd environment (after openssl cwd environment disk attempts)).2 := hholds
  exact hdone.2 (marked_after attempts huntorn h₀.marked)

/-! ## The two gaps -/

/-- An `openssl` that puts one byte out. -/
def sampleOpenssl : Openssl := ⟨fun _ _ => ([1], [2]), fun _ _ _ _ => [3], by simp, by simp⟩

/-- A disk on which no run has been. -/
def nothing : Disk := ⟨none, none⟩

/-- A run that makes up to so many calls. -/
def attemptOf (calls : Nat) : Attempt := ⟨fun _ => ⟨List.replicate 32 7, rfl⟩, 0, calls⟩

/-- A run has ended without an exception. -/
def exits : Script Call Call.Ret (Except Failure Unit × Unit) → Bool
  | .pure (.ok (), ()) => true
  | _ => false

theorem exits_iff {script : Script Call Call.Ret (Except Failure Unit × Unit)} :
    exits script = true ↔ script = .pure (.ok (), ()) := by
  unfold exits
  split
  · simp
  · next h => simpa using h

/-- A run that is killed before it makes the directory, one that makes the set, one that is killed
before it looks for it, and the last one. -/
theorem reruns_deployed_sample :
    Deployed sampleOpenssl ((attemptOf 5).run sampleOpenssl [] (utf16 "local")
      (after sampleOpenssl [] (utf16 "local") nothing [attemptOf 3, attemptOf 100, attemptOf 2])).2 tlsP12 := by
  have huntorn : Untorn sampleOpenssl [] (utf16 "local") nothing [attemptOf 3, attemptOf 100, attemptOf 2] :=
    ⟨by decide +kernel, by decide +kernel, by decide +kernel, trivial⟩
  have hexits : exits ((attemptOf 5).run sampleOpenssl [] (utf16 "local")
      (after sampleOpenssl [] (utf16 "local") nothing [attemptOf 3, attemptOf 100, attemptOf 2])).1 = true := by
    decide +kernel
  exact (reruns_deployed (.inl rfl) huntorn).1 (attemptOf 5) (exits_iff.1 hexits) tlsP12 (by decide)

/-- The first run is killed before it sets the mode of the archive, and the next one
exits with 0. -/
theorem archive_unreadable : ¬ ∀ (disk : Disk) (attempts : List Attempt) (attempt : Attempt),
    Initial sampleOpenssl disk →
      (attempt.run sampleOpenssl [] (utf16 "local")
        (after sampleOpenssl [] (utf16 "local") disk attempts)).1 =
        .pure (.ok (), ()) →
      ∀ name ∈ FILES, Deployed sampleOpenssl
        (attempt.run sampleOpenssl [] (utf16 "local")
          (after sampleOpenssl [] (utf16 "local") disk attempts)).2 name := by
  intro h
  have hexits : exits ((attemptOf 5).run sampleOpenssl [] (utf16 "local")
      (after sampleOpenssl [] (utf16 "local") nothing [attemptOf 21])).1 = true := by decide +kernel
  have hmode : (((attemptOf 5).run sampleOpenssl [] (utf16 "local")
      (after sampleOpenssl [] (utf16 "local") nothing [attemptOf 21])).2.file tlsP12).map
        File.mode = some 0o600 := by
    decide +kernel
  obtain ⟨file, hfile, -, -, hreadable⟩ :=
    h nothing [attemptOf 21] (attemptOf 5) (.inl rfl) (exits_iff.1 hexits) tlsP12 (by decide)
  rw [hfile, Option.map_some, hreadable] at hmode
  cases hmode

end Runs

end CartyxInfra.Credentials.Secrets
