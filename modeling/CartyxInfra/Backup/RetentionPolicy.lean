/-
The retention policy: every backup for 14 days, and one a week for 56.

`policy` says it in milliseconds and UTC weeks; a run of `retireOldBackups`
deletes what it does not keep.
-/
import Mathlib.Data.Int.ConditionallyCompleteOrder
import Mathlib.Data.Rat.Floor
import Mathlib.Tactic.Linarith
import Mathlib.Tactic.Ring
import CartyxInfra.Lib.StableSort
import CartyxInfra.Backup.RetireOldBackups

namespace CartyxInfra.Backup

open JString

variable {setup : Setup} {w w' : World} {b h : Bucket} {time : Int} {e e' : Entry} {entries : List Entry}

/-! ## The policy -/

/-- The newer of two manifests, ties broken by the order of the listing. -/
def Newer (e e' : Entry) : Prop :=
  e'.lastModified < e.lastModified ∨ e.lastModified = e'.lastModified ∧ e.key < e'.key

theorem Newer.irrefl (e : Entry) : ¬ Newer e e := by
  rintro (h | ⟨-, h⟩)
  · exact Int.lt_irrefl _ h
  · exact List.lt_irrefl _ h

theorem Newer.trans {e₁ e₂ e₃ : Entry} (h : Newer e₁ e₂) (h' : Newer e₂ e₃) : Newer e₁ e₃ := by
  rcases h with h | ⟨h, hk⟩ <;> rcases h' with h' | ⟨h', hk'⟩
  · exact .inl (h'.trans h)
  · exact .inl (h' ▸ h)
  · exact .inl (h ▸ h')
  · exact .inr ⟨h.trans h', List.lt_trans hk hk'⟩

theorem Newer.asymm (h : Newer e e') : ¬ Newer e' e := fun h' => irrefl e (h.trans h')

/-- A day's milliseconds. -/
abbrev day : Int := 86400000

/-- The UTC week of a time, counted from Monday, 5 January 1970. -/
def utcWeek (time : Int) : Int := (time - 4 * day) / (7 * day)

/-- Every backup for 14 days, and of each week the newest for 56. -/
def policy : Retention Entry Int Int where
  newer := Newer
  group e := utcWeek e.lastModified
  young t e := t - e.lastModified ≤ 14 * day
  recent t e := t - e.lastModified ≤ 56 * day
  order := { irrefl := Newer.irrefl, trans := fun _ _ _ => Newer.trans }
  young_of_le ht h := by omega
  recent_of_le ht h := by omega
  recent_of_newer hn h := by
    rcases hn with hn | ⟨hn, -⟩
    · omega
    · omega

theorem age_le {time lastModified : Int} {days : Nat} :
    age time lastModified ≤ days ↔ time - lastModified ≤ days * day := by
  have hpos : (0 : Rat) < 86400000 := by norm_num
  rw [age, div_le_iff₀ hpos]
  exact_mod_cast Iff.rfl

/-- The source counts its weeks from the one before. -/
theorem week_eq (lastModified : Int) : week lastModified = utcWeek lastModified + 1 := by
  have h : ((lastModified : Rat) / 86400000 + 3) / 7 =
      ((lastModified + 3 * day : Int) : Rat) / ((7 * 86400000 : Nat) : Rat) := by
    push_cast
    ring
  have hfloor := Rat.floor_intCast_div_natCast (lastModified + 3 * day) (7 * 86400000)
  rw [← h] at hfloor
  have hweek : week lastModified = (lastModified + 3 * day) / (7 * day) := hfloor
  rw [hweek]
  simp only [utcWeek, day]
  omega

/-- The loop's test, in the policy's terms. -/
theorem keep_iff {weeks : List Int} : keep time weeks e = true ↔
    policy.young time e ∨ policy.recent time e ∧ week e.lastModified ∉ weeks := by
  have hyoung : age time e.lastModified ≤ 14 ↔ policy.young time e := age_le
  have hrecent : age time e.lastModified ≤ 56 ↔ policy.recent time e := age_le
  simp [keep, hyoung, hrecent]

/-! ## The loop keeps to the policy -/

/-- The manifests are in the order the policy compares them. -/
theorem manifests_newer (h : entries.Pairwise fun e e' => e.key < e'.key) :
    (manifests entries).Pairwise Newer := by
  have hkeys := List.Pairwise.filter (fun e : Entry => endsWith e.key (utf16 ".tar.gz.json")) h
  have hnodup : (entries.filter fun e => endsWith e.key (utf16 ".tar.gz.json")).Nodup := by
    refine hkeys.imp ?_
    intro a b hab he
    subst he
    exact List.lt_irrefl _ hab
  refine (StableSort.pairwise_mergeSort ?_ ?_ hnodup hkeys).imp ?_
  · simp only [decide_eq_true_eq]
    omega
  · simp only [Bool.or_eq_true, decide_eq_true_eq]
    omega
  · intro a b hab
    simp only [decide_eq_true_eq] at hab
    rcases Int.lt_or_eq_of_le hab.1 with hlt | heq
    · exact .inl hlt
    · exact .inr ⟨heq.symm, hab.2 (by omega)⟩

theorem mem_manifests :
    e ∈ manifests entries ↔ e ∈ entries ∧ endsWith e.key (utf16 ".tar.gz.json") = true := by
  simp [manifests, List.mem_mergeSort]

theorem newest_cons {head : Entry} : policy.Newest {x | x ∈ head :: entries} e ↔
    (week head.lastModified = week e.lastModified → ¬ Newer head e) ∧ policy.Newest {x | x ∈ entries} e := by
  rw [week_eq, week_eq, add_left_inj]
  exact List.forall_mem_cons

/-- What the loop deletes, with the manifests of some weeks before those in the list. -/
theorem mem_expired {weeks : List Int} (h : entries.Pairwise Newer) :
    e ∈ expired time entries weeks ↔ e ∈ entries ∧ ¬ (policy.young time e ∨
      policy.recent time e ∧ week e.lastModified ∉ weeks ∧ policy.Newest {e | e ∈ entries} e) := by
  induction entries generalizing weeks with
  | nil => simp [expired]
  | cons head rest ih =>
    obtain ⟨hhead, hrest⟩ := List.pairwise_cons.mp h
    have hmem : e ∈ expired time (head :: rest) weeks ↔
        e = head ∧ keep time weeks head = false ∨
          e ∈ expired time rest (week head.lastModified :: weeks) := by
      rw [expired]
      cases keep time weeks head <;> simp
    rw [hmem, ih hrest]
    by_cases he : e = head
    · subst he
      have hnone : policy.Newest {x | x ∈ e :: rest} e := by
        intro e' he' _
        rcases List.mem_cons.mp he' with rfl | he'
        · exact Newer.irrefl _
        · exact (hhead e' he').asymm
      have hnot : e ∉ rest := fun hr => Newer.irrefl e (hhead e hr)
      have hkeep : keep time weeks e = false ↔ ¬ keep time weeks e = true := by simp
      rw [hkeep, keep_iff]
      simp only [hnot, List.mem_cons_self, false_and, or_false, true_and]
      exact not_congr (or_congr_right (and_congr_right fun _ =>
        ⟨fun hw => ⟨hw, hnone⟩, And.left⟩))
    · have hcons : e ∈ head :: rest ↔ e ∈ rest := by simp [he]
      rw [hcons]
      simp only [he, false_and, false_or]
      refine and_congr_right fun hr => not_congr (or_congr_right (and_congr_right fun _ => ?_))
      rw [newest_cons, List.mem_cons, not_or]
      have hn := hhead e hr
      constructor
      · rintro ⟨⟨hw, hws⟩, hall⟩
        exact ⟨hws, fun heq => absurd heq.symm hw, hall⟩
      · rintro ⟨hws, hh, hall⟩
        exact ⟨⟨fun heq => hh heq.symm hn, hws⟩, hall⟩

/-- The loop deletes the manifests that the policy does not keep. -/
theorem mem_expired_iff (h : entries.Pairwise fun e e' => e.key < e'.key) :
    e ∈ expired time (manifests entries) [] ↔
      e ∈ manifests entries ∧ ¬ policy.Kept time {e | e ∈ manifests entries} e := by
  rw [mem_expired (manifests_newer h)]
  simp only [List.not_mem_nil, not_false_eq_true, true_and]
  rfl

/-- Of an incomplete listing it deletes nothing that it keeps of the full one. -/
theorem expired_of_sublist {found : List Entry} (h : entries.Pairwise fun e e' => e.key < e'.key)
    (hs : found.Sublist entries) (he : e ∈ expired time (manifests found) []) :
    e ∈ expired time (manifests entries) [] := by
  have hsub : {e | e ∈ manifests found} ⊆ {e | e ∈ manifests entries} := fun x hx =>
    mem_manifests.mpr ⟨hs.subset (mem_manifests.mp hx).1, (mem_manifests.mp hx).2⟩
  obtain ⟨hm, hk⟩ := (mem_expired_iff (h.sublist hs)).mp he
  exact (mem_expired_iff h).mpr ⟨hsub hm, fun hk' => hk (hk'.of_subset hsub)⟩

/-! ## The bucket after a run -/

/-- What a run leaves of the bucket. -/
def retired (setup : Setup) (time : Int) (b : Bucket) : Bucket :=
  (expired time (manifests (listing setup b)) []).foldl Bucket.expire b

theorem mem_expireAll {o : Stored} : o ∈ entries.foldl Bucket.expire b ↔
    o ∈ b ∧ ∀ e ∈ entries, o.key ≠ e.key ∧ o.key ≠ archiveKey e.key := by
  induction entries generalizing b with
  | nil => simp
  | cons e rest ih =>
    rw [List.foldl_cons, ih, List.forall_mem_cons]
    simp only [Bucket.expire, Bucket.delete, List.mem_filter, bne_iff_ne, and_assoc]

theorem ordered_expireAll (hb : b.Ordered) : (entries.foldl Bucket.expire b).Ordered := by
  induction entries generalizing b with
  | nil => exact hb
  | cons e rest ih =>
    have h : (b.expire e).Ordered := (hb.filter _).filter _
    exact ih h

theorem length_expireAll : (entries.foldl Bucket.expire b).length ≤ b.length := by
  induction entries generalizing b with
  | nil => exact le_refl _
  | cons e rest ih =>
    have h : (b.expire e).length ≤ b.length := (List.length_filter_le ..).trans (List.length_filter_le ..)
    exact ih.trans h

theorem listing_ordered (hb : b.Ordered) : (listing setup b).Pairwise fun e e' => e.key < e'.key :=
  List.pairwise_map.mpr (hb.filter _)

theorem mem_completions : e ∈ completions setup b ↔ ∃ o ∈ b, setup.pre.isPrefixOf o.key = true ∧
    endsWith o.key (utf16 ".tar.gz.json") = true ∧ o.entry = e := by
  simp only [completions, listing, List.mem_filter, List.mem_map]
  constructor
  · rintro ⟨⟨o, ⟨ho, hp⟩, rfl⟩, he⟩
    exact ⟨o, ho, hp, he, rfl⟩
  · rintro ⟨o, ho, hp, he, rfl⟩
    exact ⟨⟨o, ⟨ho, hp⟩, rfl⟩, he⟩

theorem mem_manifests_listing : e ∈ manifests (listing setup b) ↔ e ∈ completions setup b := by
  rw [mem_manifests, completions, List.mem_filter]

/-- The completed backups of a bucket. -/
def completed (setup : Setup) (b : Bucket) : Set Entry := {e | e ∈ completions setup b}

theorem finite_completed : (completed setup b).Finite := List.finite_toSet _

theorem completed_put {o : Stored} (h : ∀ x ∈ b, x.key ≠ o.key) :
    completed setup (b.put o) = completed setup b ∪ completed setup [o] := by
  ext e
  simp only [completed, Set.mem_ofPred_eq, Set.mem_union, mem_completions, Bucket.mem_put_iff h,
    List.mem_singleton, or_and_right, exists_or]

theorem completions_eq {b' : Bucket} (hb : b.Ordered) (hb' : b'.Ordered)
    (h : completed setup b = completed setup b') :
    completions setup b = completions setup b' := by
  have hirrefl : Std.Irrefl fun e e' : Entry => e.key < e'.key := ⟨fun _ => List.lt_irrefl _⟩
  have hantisymm : Std.Antisymm fun e e' : Entry => e.key < e'.key :=
    ⟨fun _ _ hlt hgt => absurd (List.lt_trans hlt hgt) (List.lt_irrefl _)⟩
  exact ((listing_ordered hb).filter _).eq_of_mem_iff ((listing_ordered hb').filter _)
    fun _ => Set.ext_iff.mp h _

theorem mem_expired_listing (hb : b.Ordered) : e ∈ expired time (manifests (listing setup b)) [] ↔
    e ∈ completions setup b ∧ ¬ policy.Kept time (completed setup b) e := by
  have hset : {x | x ∈ manifests (listing setup b)} = completed setup b := by
    ext x
    exact mem_manifests_listing
  rw [mem_expired_iff (listing_ordered hb), hset, mem_manifests_listing]

/-- Nothing that is deleted has the key of a manifest that is kept. -/
theorem kept_key (hb : b.Ordered) {o : Stored} (ho : o ∈ b)
    (hs : endsWith o.key (utf16 ".tar.gz.json") = true)
    (hk : policy.Kept time (completed setup b) o.entry) :
    ∀ e ∈ expired time (manifests (listing setup b)) [], o.key ≠ e.key ∧ o.key ≠ archiveKey e.key := by
  intro e he
  obtain ⟨hec, hek⟩ := (mem_expired_listing hb).mp he
  obtain ⟨o', ho', -, hs', rfl⟩ := mem_completions.mp hec
  refine ⟨fun hkey => ?_, fun hkey => ?_⟩
  · obtain rfl := hb.unique ho ho' hkey
    exact hek hk
  · obtain ⟨name, hname⟩ := completionOf_of_endsWith hs
    obtain ⟨name', hname'⟩ := completionOf_of_endsWith hs'
    have harchive : archiveKey o'.entry.key = archiveOf name' := by
      rw [Stored.entry, hname', archiveKey_completionOf]
    rw [hname, harchive] at hkey
    exact archiveOf_ne name' name hkey.symm

/-- **A run prunes.** The manifests it leaves are those that the policy keeps of those it finds. -/
theorem completed_retired (hb : b.Ordered) :
    completed setup (retired setup time b) = policy.prune time (completed setup b) := by
  ext e
  constructor
  · intro he
    obtain ⟨o, ho, hp, hs, rfl⟩ := mem_completions.mp he
    obtain ⟨hob, hrest⟩ := mem_expireAll.mp ho
    have hc : o.entry ∈ completions setup b := mem_completions.mpr ⟨o, hob, hp, hs, rfl⟩
    refine ⟨hc, Classical.byContradiction fun hk => ?_⟩
    exact (hrest o.entry ((mem_expired_listing hb).mpr ⟨hc, hk⟩)).1 rfl
  · rintro ⟨he, hk⟩
    obtain ⟨o, ho, hp, hs, rfl⟩ := mem_completions.mp he
    exact mem_completions.mpr ⟨o, mem_expireAll.mpr ⟨ho, kept_key hb ho hs hk⟩, hp, hs, rfl⟩

/-- A run that fails prunes in part. -/
theorem completed_without (hb : w.bucket.Ordered)
    (h : Without (expired time (manifests (listing setup w.bucket)) []) w w') :
    policy.prune time (completed setup w.bucket) ⊆ completed setup w'.bucket ∧
      completed setup w'.bucket ⊆ completed setup w.bucket := by
  refine ⟨?_, ?_⟩
  · rintro e ⟨he, hk⟩
    obtain ⟨o, ho, hp, hs, rfl⟩ := mem_completions.mp he
    exact mem_completions.mpr ⟨o, h.rest o ho (kept_key hb ho hs hk), hp, hs, rfl⟩
  · intro e he
    obtain ⟨o, ho, hp, hs, rfl⟩ := mem_completions.mp he
    exact mem_completions.mpr ⟨o, h.sublist.subset ho, hp, hs, rfl⟩

/-- A run left to itself returns, with what the policy does not keep deleted. -/
theorem exec_retireOldBackups {p : PodName} {s : Variables} {choose : Call → World → Choice}
    (hc : Succeeds choose)
    (hb : w.bucket.Ordered) (hpages : w.bucket.length < setup.pages) :
    Program.exec (machine.alone always p choose) (retireOldBackups setup) s w =
      some ((.ok (), s), { w with bucket := retired setup w.clock w.bucket }) := by
  have hlist : Program.exec (machine.alone always p choose) (listEntries setup.pre setup.pages none []) s w =
      some ((.ok (listing setup w.bucket), s), w) :=
    exec_listEntries hc hb setup.pages (List.nil_append _).symm
      (Nat.lt_of_le_of_lt (List.length_filter_le ..) hpages)
  refine (Program.exec_bind hlist).trans (exec_retire hc _ _ _ fun e he => ?_)
  exact retirable_of_completions (mem_manifests_listing.mp he)

end CartyxInfra.Backup
