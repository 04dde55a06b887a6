/-
What a run of `retireOldBackups` does to the bucket.

Whatever fails, a listing that ends is the whole listing, page by page, and at
most the manifests that the loop does not keep are deleted, and their archives.
When nothing fails, exactly those are.
-/
import Mathlib.Data.List.Nodup
import Mathlib.Data.List.Sort
import Mathlib.Data.List.TakeWhile
import CartyxInfra.Lib.Retention
import CartyxInfra.Backup.Publication

namespace CartyxInfra.Backup

open JString

variable {setup : Setup} {w w' : World} {b : Bucket} {time : Int} {p : PodName} {s : Variables}

/-! ## A bucket in order -/

/-- The bucket lists its objects in the order of their keys. -/
def Bucket.Ordered (b : Bucket) : Prop := b.Pairwise fun o o' => o.key < o'.key

theorem eq_of_not_lt {k k' : JString} (h : ¬ k < k') (h' : ¬ k' < k) : k = k' := List.le_antisymm h' h

theorem dropWhile_ordered {k : JString} (hb : b.Ordered) :
    ∀ o ∈ b.dropWhile (fun x => decide (x.key < k)), ¬ o.key < k := by
  induction b with
  | nil => simp
  | cons x b ih =>
    intro o h
    obtain ⟨hx, hb⟩ := List.pairwise_cons.mp hb
    rw [List.dropWhile_cons] at h
    split at h
    · exact ih hb o h
    · next hk =>
      have hk : ¬ x.key < k := by simpa using hk
      rcases List.mem_cons.mp h with rfl | h
      · exact hk
      · exact fun ho => hk (List.lt_trans (hx o h) ho)

theorem Bucket.Ordered.filter (h : b.Ordered) (f : Stored → Bool) : Bucket.Ordered (b.filter f) :=
  List.Pairwise.filter f h

theorem Bucket.Ordered.put (h : b.Ordered) (o : Stored) : (b.put o).Ordered := by
  have hd : (b.delete o.key).Ordered := h.filter _
  have hne : ∀ x ∈ b.delete o.key, x.key ≠ o.key := fun x hx => by simpa using (List.mem_filter.mp hx).2
  have hlow : ∀ x ∈ (b.delete o.key).takeWhile (fun x => decide (x.key < o.key)), x.key < o.key :=
    fun x hx => by simpa using List.mem_takeWhile_imp hx
  have hhigh : ∀ x ∈ (b.delete o.key).dropWhile (fun x => decide (x.key < o.key)), o.key < x.key := by
    intro x hx
    have hge := dropWhile_ordered hd x hx
    exact Decidable.by_contra fun hn => hne x ((List.dropWhile_subset _) hx) (eq_of_not_lt hge hn)
  have hparts := hd
  rw [Ordered, ← List.takeWhile_append_dropWhile (p := fun x : Stored => decide (x.key < o.key))
    (l := b.delete o.key)] at hparts
  obtain ⟨htake, hdrop, hcross⟩ := List.pairwise_append.mp hparts
  refine List.pairwise_append.mpr ⟨htake, List.pairwise_cons.mpr ⟨hhigh, hdrop⟩, fun x hx y hy => ?_⟩
  rcases List.mem_cons.mp hy with rfl | hy
  · exact hlow x hx
  · exact hcross x hx y hy

theorem Bucket.Ordered.nodup_keys (h : b.Ordered) : (b.map (·.key)).Nodup := by
  refine List.pairwise_map.mpr (h.imp ?_)
  intro x y hlt he
  rw [he] at hlt
  exact List.lt_irrefl _ hlt

/-- In an ordered bucket a key names one object. -/
theorem Bucket.Ordered.unique (h : b.Ordered) {o o' : Stored} (ho : o ∈ b) (ho' : o' ∈ b)
    (hk : o.key = o'.key) :
    o = o' := List.inj_on_of_nodup_map h.nodup_keys ho ho' hk

theorem Bucket.Ordered.sublist_of_subset {b' : Bucket} (h : b.Ordered) (h' : b'.Ordered) (hsub : b ⊆ b') :
    b.Sublist b' := by
  have : Std.Antisymm fun o o' : Stored => o.key < o'.key :=
    ⟨fun _ _ hlt hgt => absurd (List.lt_trans hlt hgt) (List.lt_irrefl _)⟩
  exact List.sublist_of_subperm_of_pairwise (h.nodup_keys.of_map.subperm hsub) h h'

/-- A put under a new key adds an object. -/
theorem Bucket.mem_put_iff {o x : Stored} (h : ∀ y ∈ b, y.key ≠ o.key) : x ∈ b.put o ↔ x ∈ b ∨ x = o := by
  have hdelete : b.delete o.key = b := List.filter_eq_self.mpr fun y hy => by simpa using h y hy
  have hsplit := List.takeWhile_append_dropWhile (p := fun x : Stored => decide (x.key < o.key)) (l := b)
  rw [put, hdelete, List.mem_append, List.mem_cons, or_left_comm, ← List.mem_append, hsplit, or_comm]

/-! ## Listings -/

/-- The listing's entry of an object. -/
def Stored.entry (o : Stored) : Entry := ⟨o.key, o.lastModified⟩

/-- The whole listing of the objects under the prefix. -/
def listing (setup : Setup) (b : Bucket) : List Entry :=
  (b.filter fun o => setup.pre.isPrefixOf o.key).map Stored.entry

/-- The manifests among them, in the order of the listing. -/
def completions (setup : Setup) (b : Bucket) : List Entry :=
  (listing setup b).filter fun e => endsWith e.key (utf16 ".tar.gz.json")

/-- The rest of a listing starts after the last object of the pages so far. -/
theorem Bucket.Ordered.rest {pages rest : Bucket} (h : (pages ++ rest).Ordered) :
    (pages ++ rest).filter (fun o =>
      (pages.getLast?.map (·.key)).all fun t => decide (t < o.key)) = rest := by
  rcases List.eq_nil_or_concat pages with rfl | ⟨init, last, rfl⟩
  · simp
  · obtain ⟨hpages, -, hcross⟩ := List.pairwise_append.mp h
    rw [List.concat_eq_append] at hpages hcross ⊢
    obtain ⟨-, -, hlast⟩ := List.pairwise_append.mp hpages
    have hnone : (init ++ [last]).filter (fun o => decide (last.key < o.key)) = [] := by
      rw [List.filter_eq_nil_iff]
      intro o ho
      rcases List.mem_append.mp ho with ho | ho
      · have := hlast o ho last (List.mem_singleton_self _)
        simpa using List.lt_asymm this
      · obtain rfl := List.mem_singleton.mp ho
        simp
    have hall : rest.filter (fun o => decide (last.key < o.key)) = rest := by
      rw [List.filter_eq_self]
      intro o ho
      simpa using hcross last (by simp) o ho
    simp [List.filter_append, hall] at hnone ⊢
    exact hnone

/-! ## What the loop deletes -/

/-- The manifests the loop does not keep, at one time. -/
def expired (time : Int) : List Entry → List Int → List Entry
  | [], _ => []
  | entry :: rest, weeks =>
    if keep time weeks entry then expired time rest (week entry.lastModified :: weeks)
    else entry :: expired time rest (week entry.lastModified :: weeks)

/-- A manifest and its archive are deleted. -/
def Bucket.expire (b : Bucket) (entry : Entry) : Bucket := (b.delete entry.key).delete (archiveKey entry.key)

/-- A manifest whose archive's key passes the check before the deletions. -/
structure Retirable (pre : JString) (entry : Entry) : Prop where
  under : pre.isPrefixOf (archiveKey entry.key) = true
  archive : endsWith (archiveKey entry.key) (utf16 ".tar.gz") = true

/-- The prefix ends with a slash, and a manifest's suffix has none. -/
theorem pre_of_completionOf {name : JString} (h : setup.pre <+: completionOf name) : setup.pre <+: name := by
  by_cases hlen : setup.pre.length ≤ name.length
  · exact List.prefix_of_prefix_length_le h (List.prefix_append ..) hlen
  · obtain ⟨x, hx⟩ := List.prefix_of_prefix_length_le (List.prefix_append name _) h (by omega)
    obtain ⟨y, hy⟩ := h
    have hxy : x ++ y = utf16 ".tar.gz.json" := by
      rw [← hx, completionOf, List.append_assoc] at hy
      exact List.append_cancel_left hy
    have hslash : setup.pre.getLast? = some 47 := by
      have : (utf16 "/cluster/").getLast? = some 47 := by decide
      rw [Setup.pre, List.getLast?_append, this, Option.some_or]
    have hxne : x ≠ [] := by
      rintro rfl
      rw [← hx] at hlen
      simp at hlen
    rw [← hx, List.getLast?_append, List.getLast?_eq_some_getLast hxne, Option.some_or] at hslash
    have hmem : (47 : UInt16) ∈ utf16 ".tar.gz.json" := by
      rw [← hxy, ← Option.some.inj hslash]
      exact List.mem_append_left _ (List.getLast_mem hxne)
    exact absurd hmem (by decide)

theorem mem_listing {e : Entry} (h : e ∈ listing setup b) : setup.pre <+: e.key := by
  simp only [listing, List.mem_map, List.mem_filter] at h
  obtain ⟨o, ⟨-, ho⟩, rfl⟩ := h
  exact List.isPrefixOf_iff_prefix.mp ho

theorem retirable_of_endsWith {e : Entry} (hpre : setup.pre <+: e.key)
    (he : endsWith e.key (utf16 ".tar.gz.json") = true) : Retirable setup.pre e := by
  obtain ⟨name, hname⟩ := completionOf_of_endsWith he
  rw [hname] at hpre
  refine ⟨?_, ?_⟩
  · rw [hname, archiveKey_completionOf, List.isPrefixOf_iff_prefix]
    exact (pre_of_completionOf hpre).trans (List.prefix_append ..)
  · rw [hname, archiveKey_completionOf, endsWith, List.isSuffixOf_iff_suffix]
    exact List.suffix_append ..

theorem retirable_of_completions {e : Entry} (h : e ∈ completions setup b) : Retirable setup.pre e := by
  obtain ⟨hl, he⟩ := List.mem_filter.mp h
  exact retirable_of_endsWith (mem_listing hl) he

/-- Of a listing in pages, the one after the pages so far. -/
theorem page_eq (hb : b.Ordered) {pages rest : Bucket} (size : Nat)
    (h : b.filter (fun o => setup.pre.isPrefixOf o.key) = pages ++ rest) :
    b.page setup.pre (pages.getLast?.map (·.key)) size =
      ⟨(rest.take size).map Stored.entry,
        if rest.length ≤ size then none else (rest.take size).getLast?.map (·.key)⟩ := by
  have hrest : (b.filter fun o => setup.pre.isPrefixOf o.key &&
      (pages.getLast?.map (·.key)).all fun t => decide (t < o.key)) = rest := by
    have hord : (pages ++ rest).Ordered := h ▸ hb.filter _
    rw [← hord.rest, ← h, List.filter_filter]
    simp only [Bool.and_comm]
  simp only [Bucket.page, hrest, List.getLast?_map, Option.map_map]
  rfl

/-! ## What a run can do, whatever fails -/

/-- At most these manifests and their archives are gone. -/
structure Without (entries : List Entry) (w w' : World) : Prop where
  clock : w'.clock = w.clock
  sublist : w'.bucket.Sublist w.bucket
  rest : ∀ o ∈ w.bucket, (∀ e ∈ entries, o.key ≠ e.key ∧ o.key ≠ archiveKey e.key) → o ∈ w'.bucket

theorem Without.refl (entries : List Entry) (w : World) : Without entries w w :=
  ⟨rfl, .refl _, fun _ ho _ => ho⟩

theorem Without.trans {entries : List Entry} {w₁ : World} (h : Without entries w w₁)
    (h' : Without entries w₁ w') :
    Without entries w w' :=
  ⟨h'.clock.trans h.clock, h'.sublist.trans h.sublist, fun o ho hr => h'.rest o (h.rest o ho hr) hr⟩

theorem Without.mono {entries found : List Entry} (hsub : found ⊆ entries) (h : Without found w w') :
    Without entries w w' := ⟨h.clock, h.sublist, fun o ho hr => h.rest o ho fun e he => hr e (hsub he)⟩

section

variable {choose : Call → World → Choice}

theorem exec_await {α : Type} {r : Reply α} {out : Except Stop α × Variables}
    (h : Program.exec (machine.alone always p choose) (await r) s w = some (out, w')) :
    w' = w ∧ ∀ a s', out = (.ok a, s') → r = .ok a := by
  cases r with
  | ok a =>
    cases h
    exact ⟨rfl, fun _ _ h => by cases h; rfl⟩
  | error message =>
    cases h
    exact ⟨rfl, fun _ _ h => by cases h⟩

theorem listObjects_cases {pre : JString} {token : Option JString} {out : Except Stop Page × Variables}
    (h : Program.exec (machine.alone always p choose) (listObjects pre token) s w = some (out, w')) :
    w' = w ∧ ∀ page s', out = (.ok page, s') → ∃ size, size ≠ 0 ∧ page = w.bucket.page pre token size := by
  obtain ⟨r, w₁, hr, hf⟩ := Program.exec_call_cases h
  have hr' : perform p (.listObjects pre token) (choose (.listObjects pre token) w) w = some (r, w₁) := hr
  simp only [perform, Fallible.read, Fallible.reply] at hr'
  obtain ⟨rfl, hok⟩ := exec_await hf
  split at hr'
  · cases hr'
  · next hsize =>
    simp only [Option.some.injEq, Prod.mk.injEq] at hr'
    obtain ⟨hreply, rfl⟩ := hr'
    refine ⟨rfl, fun page s' ho => ?_⟩
    rw [hok page s' ho] at hreply
    split at hreply
    · exact ⟨_, hsize, (Except.ok.inj hreply).symm⟩
    · cases hreply

/-- A page that is not the last has a last object. -/
theorem getLast_take {rest : Bucket} {size : Nat} (hsize : size ≠ 0) (h : ¬ rest.length ≤ size) :
    ∃ last, (rest.take size).getLast? = some last := by
  have hne : rest.take size ≠ [] := by
    intro hnil
    rcases List.take_eq_nil_iff.mp hnil with h0 | h0
    · exact hsize h0
    · simp [h0] at h
  exact ⟨_, List.getLast?_eq_some_getLast hne⟩

/-- A listing that ends is the whole one. -/
theorem listEntries_cases (hb : w.bucket.Ordered) : ∀ (n : Nat) {pages rest : Bucket} {s : Variables}
    {out : Except Stop (List Entry) × Variables},
    w.bucket.filter (fun o => setup.pre.isPrefixOf o.key) = pages ++ rest →
      Program.exec (machine.alone always p choose)
        (listEntries setup.pre n (pages.getLast?.map (·.key)) (pages.map Stored.entry)) s w = some (out, w') →
      w' = w ∧ ∀ entries s', out = (.ok entries, s') → entries = listing setup w.bucket
  | 0, _, _, _, _, _, h => by
    cases h
    exact ⟨rfl, fun _ _ h => by cases h⟩
  | n + 1, pages, rest, s, out, hsplit, h => by
    rcases Program.exec_bind_cases h with ⟨page, s₁, w₁, hpage, h⟩ | ⟨e, s₁, rfl, hpage⟩
    · obtain ⟨hw, hp⟩ := listObjects_cases hpage
      obtain ⟨size, hsize, rfl⟩ := hp page s₁ rfl
      rw [hw, page_eq hb size hsplit] at h
      by_cases hle : rest.length ≤ size
      · simp only [if_pos hle] at h
        rw [List.take_of_length_le hle, ← List.map_append, ← hsplit] at h
        cases h
        exact ⟨rfl, fun _ _ h => by cases h; rfl⟩
      · obtain ⟨last, hlast⟩ := getLast_take hsize hle
        have hsplit' : w.bucket.filter (fun o => setup.pre.isPrefixOf o.key) =
            (pages ++ rest.take size) ++ rest.drop size := by
          rw [hsplit, List.append_assoc, List.take_append_drop]
        have hnext : (pages ++ rest.take size).getLast?.map (·.key) = some last.key := by
          rw [List.getLast?_append, hlast]
          rfl
        simp only [if_neg hle, hlast, Option.map_some] at h
        rw [← List.map_append, ← hnext] at h
        exact listEntries_cases hb n hsplit' h
    · obtain ⟨rfl, -⟩ := listObjects_cases hpage
      exact ⟨rfl, fun _ _ h => by cases h⟩

variable {out : Except Stop Unit × Variables}

theorem deleteObject_without {entry : Entry} {key : JString}
    (hkey : key = entry.key ∨ key = archiveKey entry.key)
    (h : Program.exec (machine.alone always p choose) (deleteObject key) s w = some (out, w')) :
    Without [entry] w w' := by
  obtain ⟨r, w₁, hr, hf⟩ := Program.exec_call_cases h
  have hr' : perform p (.deleteObject key) (choose (.deleteObject key) w) w = some (r, w₁) := hr
  obtain ⟨rfl, -⟩ := exec_await hf
  rcases perform_cases hr' with rfl | rfl
  · exact .refl _ _
  · refine ⟨rfl, List.filter_sublist, fun o ho hrest => List.mem_filter.mpr ⟨ho, ?_⟩⟩
    have hne := hrest entry (List.mem_singleton_self _)
    rcases hkey with rfl | rfl
    · simpa using hne.1
    · simpa using hne.2

theorem expire_without {pre : JString} {entry : Entry}
    (h : Program.exec (machine.alone always p choose) (expire pre entry) s w = some (out, w')) :
    Without [entry] w w' := by
  rcases Program.exec_bind_cases h with ⟨_, _, w₁, hcheck, hdelete⟩ | ⟨_, _, -, hcheck⟩
  · obtain rfl := Program.exec_throwIf hcheck
    rcases Program.exec_bind_cases hdelete with ⟨_, _, w₂, hfirst, hsecond⟩ | ⟨_, _, -, hfirst⟩
    · exact (deleteObject_without (.inl rfl) hfirst).trans (deleteObject_without (.inr rfl) hsecond)
    · exact deleteObject_without (.inl rfl) hfirst
  · obtain rfl := Program.exec_throwIf hcheck
    exact .refl _ _

theorem retire_without {pre : JString} (entries : List Entry) (weeks : List Int)
    (h : Program.exec (machine.alone always p choose) (retire pre entries weeks) s w = some (out, w')) :
    Without (expired w.clock entries weeks) w w' := by
  induction entries generalizing weeks s w with
  | nil =>
    cases h
    exact .refl _ _
  | cons entry rest ih =>
    obtain ⟨time, w₁, hnow, hloop⟩ := Program.exec_call_cases h
    have hnow' : perform p .now (choose .now w) w = some (time, w₁) := hnow
    obtain ⟨htime, hw⟩ : w.clock = time ∧ w = w₁ := by simpa [perform] using hnow'
    rw [← htime, ← hw] at hloop
    have hunless : ∀ {out w₂}, Program.exec (machine.alone always p choose)
        (expireUnless (keep w.clock weeks entry) pre entry) s w = some (out, w₂) →
          Without (expired w.clock (entry :: rest) weeks) w w₂ := by
      intro out w₂ hx
      rw [expired]
      cases hk : keep w.clock weeks entry with
      | true =>
        rw [hk] at hx
        cases hx
        exact .refl _ _
      | false =>
        rw [hk] at hx
        exact (expire_without hx).mono (by simp)
    have hsub : expired w.clock rest (week entry.lastModified :: weeks) ⊆
        expired w.clock (entry :: rest) weeks := by
      rw [expired]
      split
      · exact fun _ he => he
      · exact List.subset_cons_self ..
    rcases Program.exec_bind_cases hloop with ⟨_, _, w₂, hfirst, hrest⟩ | ⟨_, _, -, hfirst⟩
    · have h₁ := hunless hfirst
      have h₂ := ih _ hrest
      rw [h₁.clock] at h₂
      exact h₁.trans (h₂.mono hsub)
    · exact hunless hfirst

theorem retireOldBackups_without (hb : w.bucket.Ordered)
    (h : Program.exec (machine.alone always p choose) (retireOldBackups setup) s w = some (out, w')) :
    Without (expired w.clock (manifests (listing setup w.bucket)) []) w w' := by
  rcases Program.exec_bind_cases h with ⟨entries, s₁, w₁, hlist, h⟩ | ⟨_, _, -, hlist⟩
  · obtain ⟨rfl, hentries⟩ := listEntries_cases hb setup.pages (List.nil_append _).symm hlist
    obtain rfl := hentries entries s₁ rfl
    exact retire_without _ _ h
  · obtain ⟨rfl, -⟩ := listEntries_cases hb setup.pages (List.nil_append _).symm hlist
    exact .refl _ _

end

/-! ## A run left to itself -/

/-- Nothing fails, and every page has something on it. -/
def Succeeds (choose : Call → World → Choice) : Prop :=
  ∀ c w, (choose c w).error = none ∧ (choose c w).size ≠ 0

section

variable {choose : Call → World → Choice}

theorem exec_now : Program.exec (machine.alone always p choose) now s w = some ((.ok w.clock, s), w) :=
  Program.exec_make rfl

variable (hc : Succeeds choose)
include hc

theorem exec_deleteObject {key : JString} :
    Program.exec (machine.alone always p choose) (deleteObject key) s w =
      some ((.ok (), s), w.deleteObject key) := by
  have hcall : machine.alone always p choose (.deleteObject key) w = some (.ok (), w.deleteObject key) := by
    simp [Machine.alone, always, machine, perform, Fallible.write, Fallible.reply, Fallible.lands, (hc _ _).1]
  exact Program.exec_bind (Program.exec_make hcall)

theorem exec_listObjects {pre : JString} {token : Option JString} :
    Program.exec (machine.alone always p choose) (listObjects pre token) s w =
      some ((.ok (w.bucket.page pre token (choose (.listObjects pre token) w).size), s), w) := by
  have hcall : machine.alone always p choose (.listObjects pre token) w =
      some (.ok (w.bucket.page pre token (choose (.listObjects pre token) w).size), w) := by
    simp [Machine.alone, always, machine, perform, Fallible.read, Fallible.reply, (hc _ _).1, (hc _ _).2]
  exact Program.exec_bind (Program.exec_make hcall)

/-- The pages, put together, are the whole listing. -/
theorem exec_listEntries (hb : w.bucket.Ordered) : ∀ (n : Nat) {pages rest : Bucket},
    w.bucket.filter (fun o => setup.pre.isPrefixOf o.key) = pages ++ rest → rest.length < n →
      Program.exec (machine.alone always p choose)
        (listEntries setup.pre n (pages.getLast?.map (·.key)) (pages.map Stored.entry)) s w =
          some ((.ok (listing setup w.bucket), s), w)
  | 0, _, _, _, hn => absurd hn (Nat.not_lt_zero _)
  | n + 1, pages, rest, hsplit, hn => by
    refine (Program.exec_bind (exec_listObjects hc)).trans ?_
    rw [page_eq hb _ hsplit]
    have hsize := (hc (.listObjects setup.pre (pages.getLast?.map (·.key))) w).2
    generalize (choose (.listObjects setup.pre (pages.getLast?.map (·.key))) w).size = size at hsize ⊢
    by_cases hle : rest.length ≤ size
    · rw [if_pos hle, List.take_of_length_le hle, listing, hsplit, List.map_append]
      exact Program.exec_pure _
    · obtain ⟨last, hlast⟩ := getLast_take hsize hle
      have hsplit' : w.bucket.filter (fun o => setup.pre.isPrefixOf o.key) =
          (pages ++ rest.take size) ++ rest.drop size := by
        rw [hsplit, List.append_assoc, List.take_append_drop]
      have ih := exec_listEntries hb n hsplit' (by rw [List.length_drop]; omega)
      simp only [List.getLast?_append, hlast, List.map_append] at ih
      simp only [if_neg hle, hlast, Option.map_some]
      exact ih

theorem exec_expire {pre : JString} {entry : Entry} (h : Retirable pre entry) :
    Program.exec (machine.alone always p choose) (expire pre entry) s w =
      some ((.ok (), s), { w with bucket := w.bucket.expire entry }) := by
  have hcheck : (!pre.isPrefixOf (archiveKey entry.key) ||
      !endsWith (archiveKey entry.key) (utf16 ".tar.gz")) = false := by simp [h.under, h.archive]
  unfold expire
  simp only [throwIf_false hcheck]
  refine (Program.exec_bind (Program.exec_pure ())).trans ?_
  exact (Program.exec_bind (exec_deleteObject hc)).trans (exec_deleteObject hc)

theorem exec_retire {pre : JString} (entries : List Entry) (weeks : List Int) (w : World)
    (h : ∀ e ∈ entries, Retirable pre e) :
    Program.exec (machine.alone always p choose) (retire pre entries weeks) s w =
      some ((.ok (), s),
        { w with bucket := (expired w.clock entries weeks).foldl Bucket.expire w.bucket }) := by
  induction entries generalizing weeks w with
  | nil => exact Program.exec_pure ()
  | cons entry rest ih =>
    have hrest : ∀ e ∈ rest, Retirable pre e := fun e he => h e (List.mem_cons_of_mem _ he)
    refine (Program.exec_bind exec_now).trans ?_
    cases hk : keep w.clock weeks entry with
    | true =>
      rw [expireUnless, if_pos rfl]
      refine (Program.exec_bind (Program.exec_pure ())).trans ((ih _ w hrest).trans ?_)
      simp only [expired, hk, if_true]
    | false =>
      rw [expireUnless, if_neg (by simp)]
      refine (Program.exec_bind (exec_expire hc (h entry (List.mem_cons_self ..)))).trans
        ((ih _ _ hrest).trans ?_)
      simp only [expired, hk, Bool.false_eq_true, if_false, List.foldl_cons]

end

end CartyxInfra.Backup
