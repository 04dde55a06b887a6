/-
`PatchJar`: the server's JAR with two of its classes replaced.

One loop writes the output and uses up the set of classes still to be
replaced, over entries that have been sorted first, so that an archive comes
out the same however it was packed (`main_eq`).
-/
import CartyxInfra.Lib.JString
import CartyxInfra.Lib.Regex
import Mathlib.Data.List.Sort
import Mathlib.Data.List.Lex
import Mathlib.Data.Nat.Basic

namespace CartyxInfra.Images

open JString Regex

/-- An entry of an archive, with its contents. -/
structure ZipEntry where
  name : JString
  content : List UInt8
  deriving DecidableEq

namespace PatchJar

/-- The directory of the handlers' classes. -/
def PREFIX : JString := utf16 "org/apache/tinkerpop/gremlin/server/handler/"

/-- The entries that are replaced. -/
def REPLACEMENTS : List JString :=
  [PREFIX ++ utf16 "WebSocketAuthorizationHandler.class",
    PREFIX ++ utf16 "HttpBasicAuthorizationHandler.class"]

/-- Java's line terminators, which the dot of a regular expression stands for none of. -/
def lineTerminator (unit : UInt16) : Bool :=
  unit == 0x0A || unit == 0x0D || unit == 0x85 || unit == 0x2028 || unit == 0x2029

/-- `META-INF/.*\.(SF|RSA|DSA|EC)`. -/
def SIGNATURE : Regex UInt16 :=
  seq (lit (utf16 "META-INF/")) (seq (many fun unit => !lineTerminator unit) (seq (lit (utf16 "."))
    (either (lit (utf16 "SF")) (either (lit (utf16 "RSA")) (either (lit (utf16 "DSA")) (lit (utf16 "EC")))))))

/-- `name.compareTo(other) <= 0`: code unit by code unit. -/
def nameLe (name other : JString) : Bool := name.map UInt16.toNat ≤ other.map UInt16.toNat

/-- The loop, over the entries that are left, those seen and the classes still to be
replaced: what it writes, and the classes that are left. -/
def copy (compiled : JString → List UInt8) : List ZipEntry → List JString → List JString →
    Except String (List ZipEntry × List JString)
  | [], _, replacements => .ok ([], replacements)
  | entry :: rest, seen, replacements =>
    let name := entry.name
    if name ∈ seen ∨ fullMatch SIGNATURE name = true then .error "Duplicate entry or signed input JAR"
    else if name ∈ replacements then do
      let (output, left) ← copy compiled rest (name :: seen) (replacements.filter (· ≠ name))
      .ok (⟨name, compiled name⟩ :: output, left)
    else do
      let (output, left) ← copy compiled rest (name :: seen) replacements
      .ok (entry :: output, left)

/-- `main`: the input's entries, the compiled classes by their names, and the output's entries. -/
def main (source : List ZipEntry) (compiled : JString → List UInt8) : Except String (List ZipEntry) := do
  let entries := source.mergeSort fun entry other => nameLe entry.name other.name
  let (output, replacements) ← copy compiled entries [] REPLACEMENTS
  if replacements ≠ [] then .error "Missing original handler" else .ok output

/-! ## Signatures -/

/-- The endings of signature files. -/
def EXTENSIONS : List JString := [utf16 ".SF", utf16 ".RSA", utf16 ".DSA", utf16 ".EC"]

/-- A signature file: under `META-INF/`, at any depth, with no line break in its name. -/
structure Signature (name : JString) : Prop where
  directory : utf16 "META-INF/" <+: name
  extension : ∃ extension ∈ EXTENSIONS, extension <:+ name
  oneLine : ∀ unit ∈ name, lineTerminator unit = false

/-- The two fixed parts of the name do not overlap: there is a dot in one only. -/
theorem signature_iff {name : JString} : Signature name ↔ ∃ path extension, extension ∈ EXTENSIONS ∧
    (∀ unit ∈ path, lineTerminator unit = false) ∧ name = utf16 "META-INF/" ++ (path ++ extension) := by
  constructor
  · rintro ⟨⟨rest, hrest⟩, ⟨extension, hmem, front, hfront⟩, hline⟩
    have hdot : ∀ extension ∈ EXTENSIONS, extension.head? = some (46 : UInt16) := by decide
    rcases List.append_eq_append_iff.1 (hrest.trans hfront.symm) with ⟨path, rfl, rfl⟩ | ⟨overlap, hover, rfl⟩
    · refine ⟨path, extension, hmem, fun unit hunit => hline unit ?_, by rw [← hfront, List.append_assoc]⟩
      rw [← hfront]
      simp [hunit]
    · cases overlap with
      | nil =>
        refine ⟨[], rest, by simpa using hmem, by simp, ?_⟩
        rw [← hrest, List.nil_append]
      | cons unit overlap =>
        have hunit : (46 : UInt16) ∈ utf16 "META-INF/" := by
          have hhead := hdot _ hmem
          simp only [List.cons_append, List.head?_cons, Option.some.injEq] at hhead
          rw [hover, hhead]
          simp
        exact absurd hunit (by decide)
  · rintro ⟨path, extension, hmem, hpath, rfl⟩
    have hextension : ∀ extension ∈ EXTENSIONS, ∀ unit ∈ extension, lineTerminator unit = false := by
      have hall : EXTENSIONS.all (·.all (!lineTerminator ·)) = true := by decide
      simpa using hall
    have hdirectory : ∀ unit ∈ utf16 "META-INF/", lineTerminator unit = false := by
      have hall : (utf16 "META-INF/").all (!lineTerminator ·) = true := by decide
      simpa only [List.all_eq_true, Bool.not_eq_true'] using hall
    refine ⟨List.prefix_append .., ⟨extension, hmem, ?_⟩, fun unit hunit => ?_⟩
    · rw [← List.append_assoc]
      exact List.suffix_append ..
    · simp only [List.mem_append] at hunit
      rcases hunit with hunit | hunit | hunit
      · exact hdirectory unit hunit
      · exact hpath unit hunit
      · exact hextension extension hmem unit hunit

theorem fullMatch_SIGNATURE {name : JString} : fullMatch SIGNATURE name = true ↔ Signature name := by
  have hreads := (reads_lit (utf16 "META-INF/")).seq ((reads_many fun unit => !lineTerminator unit).seq
    ((reads_lit (utf16 ".")).seq ((reads_lit (utf16 "SF")).either ((reads_lit (utf16 "RSA")).either
      ((reads_lit (utf16 "DSA")).either (reads_lit (utf16 "EC")))))))
  rw [SIGNATURE, hreads.fullMatch_iff, signature_iff]
  constructor
  · rintro ⟨_, _, rfl, ⟨path, _, hpath, ⟨_, suffix, rfl, hsuffix, rfl⟩, rfl⟩, rfl⟩
    refine ⟨path, utf16 "." ++ suffix, ?_, by simpa using hpath, rfl⟩
    rcases hsuffix with rfl | rfl | rfl | rfl <;> decide
  · rintro ⟨path, extension, hmem, hpath, rfl⟩
    refine ⟨_, _, rfl, ⟨path, extension, by simpa using hpath,
      ⟨utf16 ".", extension.tail, rfl, ?_, ?_⟩, rfl⟩, rfl⟩
    · revert extension
      decide
    · revert extension
      decide

/-! ## The loop -/

/-- An entry as it comes out, where some are to be replaced. -/
def replaced (compiled : JString → List UInt8) (replacements : List JString) (entry : ZipEntry) : ZipEntry :=
  if entry.name ∈ replacements then ⟨entry.name, compiled entry.name⟩ else entry

@[simp] theorem replaced_name (compiled : JString → List UInt8) (replacements : List JString)
    (entry : ZipEntry) :
    (replaced compiled replacements entry).name = entry.name := by
  unfold replaced
  split <;> rfl

theorem replaced_filter {compiled : JString → List UInt8} {replacements : List JString} {name : JString}
    {entry : ZipEntry} (h : entry.name ≠ name) :
    replaced compiled (replacements.filter (· ≠ name)) entry = replaced compiled replacements entry := by
  simp [replaced, h]

/-- What the loop asks of the entries that are left. -/
structure Copyable (entries : List ZipEntry) (seen : List JString) : Prop where
  unsigned : ∀ entry ∈ entries, ¬ Signature entry.name
  unseen : ∀ entry ∈ entries, entry.name ∉ seen
  distinct : (entries.map (·.name)).Nodup

theorem copyable_cons {entry : ZipEntry} {rest : List ZipEntry} {seen : List JString} :
    Copyable (entry :: rest) seen ↔
      (entry.name ∉ seen ∧ ¬ Signature entry.name) ∧ Copyable rest (entry.name :: seen) := by
  constructor
  · rintro ⟨hunsigned, hunseen, hdistinct⟩
    rw [List.map_cons, List.nodup_cons] at hdistinct
    refine ⟨⟨hunseen _ (.head _), hunsigned _ (.head _)⟩, fun e he => hunsigned e (.tail _ he),
      fun e he => ?_,
      hdistinct.2⟩
    rw [List.mem_cons, not_or]
    exact ⟨fun hname => hdistinct.1 (hname ▸ List.mem_map_of_mem he), hunseen e (.tail _ he)⟩
  · rintro ⟨⟨hseen, hsigned⟩, hunsigned, hunseen, hdistinct⟩
    simp only [List.mem_cons, not_or] at hunseen
    refine ⟨?_, ?_, ?_⟩
    · simpa [hsigned] using hunsigned
    · simpa [hseen] using fun e he => (hunseen e he).2
    · rw [List.map_cons, List.nodup_cons]
      refine ⟨fun hmem => ?_, hdistinct⟩
      obtain ⟨e, he, hname⟩ := List.mem_map.1 hmem
      exact (hunseen e he).1 hname

theorem bind_cons_eq_ok {result : Except String (List ZipEntry × List JString)} {entry : ZipEntry}
    {output : List ZipEntry} {left : List JString} :
    (do let (output, left) ← result; .ok (entry :: output, left)) = Except.ok (output, left) ↔
      ∃ rest, result = .ok (rest, left) ∧ output = entry :: rest := by
  cases result with
  | error message =>
    constructor
    · intro h
      cases h
    · rintro ⟨_, h, -⟩
      cases h
  | ok pair =>
    obtain ⟨rest, left'⟩ := pair
    constructor
    · intro h
      cases h
      exact ⟨rest, rfl, rfl⟩
    · rintro ⟨_, h, rfl⟩
      cases h
      rfl

theorem map_replaced_filter {compiled : JString → List UInt8} {replacements seen : List JString}
    {name : JString}
    {rest : List ZipEntry} (h : Copyable rest (name :: seen)) :
    rest.map (replaced compiled (replacements.filter (· ≠ name))) =
      rest.map (replaced compiled replacements) := by
  refine List.map_congr_left fun entry hentry => replaced_filter fun hname => ?_
  exact h.unseen entry hentry (hname ▸ .head _)

theorem filter_filter_cons (replacements names : List JString) (name : JString) :
    (replacements.filter (· ≠ name)).filter (· ∉ names) = replacements.filter (· ∉ name :: names) := by
  rw [List.filter_filter]
  refine List.filter_congr fun other _ => ?_
  by_cases hname : other = name <;> simp [hname]

theorem filter_cons_of_notMem {replacements names : List JString} {name : JString} (h : name ∉ replacements) :
    replacements.filter (· ∉ name :: names) = replacements.filter (· ∉ names) := by
  refine List.filter_congr fun other hmem => ?_
  have hne : other ≠ name := fun he => h (he ▸ hmem)
  simp [hne]

/-- **What the loop writes and leaves**: every entry as it comes out, and the
classes that none of them was. -/
theorem copy_eq_ok (compiled : JString → List UInt8) {entries : List ZipEntry}
    {seen replacements : List JString} {output : List ZipEntry} {left : List JString} :
    copy compiled entries seen replacements = .ok (output, left) ↔
      Copyable entries seen ∧ output = entries.map (replaced compiled replacements) ∧
        left = replacements.filter (· ∉ entries.map (·.name)) := by
  induction entries generalizing seen replacements output left with
  | nil =>
    have hnil : Copyable [] seen := ⟨by simp, by simp, by simp⟩
    simp [copy, hnil, eq_comm]
  | cons entry rest ih =>
    rw [copyable_cons, copy]
    dsimp only
    by_cases hguard : entry.name ∈ seen ∨ fullMatch SIGNATURE entry.name = true
    · rw [if_pos hguard]
      rw [fullMatch_SIGNATURE] at hguard
      refine iff_of_false (fun h => by cases h) fun h => ?_
      exact hguard.elim h.1.1.1 h.1.1.2
    rw [if_neg hguard]
    rw [fullMatch_SIGNATURE, not_or] at hguard
    rw [and_iff_right hguard]
    by_cases hname : entry.name ∈ replacements
    · rw [if_pos hname, bind_cons_eq_ok]
      simp only [ih, List.map_cons, filter_filter_cons]
      have hentry : replaced compiled replacements entry = ⟨entry.name, compiled entry.name⟩ := by
        rw [replaced, if_pos hname]
      constructor
      · rintro ⟨_, ⟨hrest, rfl, hleft⟩, rfl⟩
        exact ⟨hrest, by rw [map_replaced_filter hrest, hentry], hleft⟩
      · rintro ⟨hrest, rfl, hleft⟩
        exact ⟨_, ⟨hrest, rfl, hleft⟩, by rw [map_replaced_filter hrest, hentry]⟩
    · rw [if_neg hname, bind_cons_eq_ok]
      simp only [ih, List.map_cons, filter_cons_of_notMem hname]
      have hentry : replaced compiled replacements entry = entry := by rw [replaced, if_neg hname]
      constructor
      · rintro ⟨_, ⟨hrest, rfl, hleft⟩, rfl⟩
        exact ⟨hrest, by rw [hentry], hleft⟩
      · rintro ⟨hrest, rfl, hleft⟩
        exact ⟨_, ⟨hrest, rfl, hleft⟩, by rw [hentry]⟩

/-! ## The archive -/

/-- An archive that can be patched. -/
structure Patchable (source : List ZipEntry) : Prop where
  distinct : (source.map (·.name)).Nodup
  unsigned : ∀ entry ∈ source, ¬ Signature entry.name
  complete : ∀ name ∈ REPLACEMENTS, name ∈ source.map (·.name)

/-- Ascending, by code units. -/
def Ascending (output : List ZipEntry) : Prop :=
  output.Pairwise fun entry other => entry.name.map UInt16.toNat < other.name.map UInt16.toNat

theorem nameLe_trans (name name' name'' : JString) (h : nameLe name name' = true)
    (h' : nameLe name' name'' = true) :
    nameLe name name'' = true := by
  simp only [nameLe, decide_eq_true_eq] at *
  exact le_trans h h'

theorem nameLe_total (name name' : JString) : (nameLe name name' || nameLe name' name) = true := by
  simp only [nameLe, Bool.or_eq_true, decide_eq_true_eq]
  exact le_total _ _

/-- The sorted entries, which come out one for one. -/
def sorted (source : List ZipEntry) : List ZipEntry :=
  source.mergeSort fun entry other => nameLe entry.name other.name

theorem sorted_perm (source : List ZipEntry) : (sorted source).Perm source := List.mergeSort_perm ..

theorem map_name_sorted_perm (source : List ZipEntry) :
    ((sorted source).map (·.name)).Perm (source.map (·.name)) :=
  (sorted_perm source).map _

theorem main_eq_ok {source output : List ZipEntry} {compiled : JString → List UInt8} :
    main source compiled = .ok output ↔
      Patchable source ∧ output = (sorted source).map (replaced compiled REPLACEMENTS) := by
  have hperm := sorted_perm source
  have hnames := map_name_sorted_perm source
  have hcopyable : Copyable (sorted source) [] ↔
      (∀ entry ∈ source, ¬ Signature entry.name) ∧ (source.map (·.name)).Nodup := by
    constructor
    · intro h
      exact ⟨fun entry hentry => h.unsigned entry (hperm.mem_iff.2 hentry), hnames.nodup_iff.1 h.distinct⟩
    · intro h
      exact ⟨fun entry hentry => h.1 entry (hperm.mem_iff.1 hentry), by simp, hnames.nodup_iff.2 h.2⟩
  have hcopy := @copy_eq_ok compiled (sorted source) [] REPLACEMENTS
  have hmain : main source compiled = (copy compiled (sorted source) [] REPLACEMENTS).bind fun result =>
      if result.2 ≠ [] then .error "Missing original handler" else .ok result.1 := rfl
  rw [hmain]
  cases hresult : copy compiled (sorted source) [] REPLACEMENTS with
  | error message =>
    refine iff_of_false nofun fun h => ?_
    have hok := hcopy.2 ⟨hcopyable.2 ⟨h.1.unsigned, h.1.distinct⟩, rfl, rfl⟩
    rw [hresult] at hok
    cases hok
  | ok result =>
    obtain ⟨hall, hwritten, hleft⟩ := hcopy.1 hresult
    have hdone : result.2 = [] ↔ ∀ name ∈ REPLACEMENTS, name ∈ source.map (·.name) := by
      simp only [hleft, List.filter_eq_nil_iff, decide_not, Bool.not_eq_true', decide_eq_false_iff_not,
        not_not, hnames.mem_iff]
    simp only [Except.bind]
    by_cases hempty : result.2 = []
    · rw [if_neg (not_not.2 hempty), Except.ok.injEq, hwritten, eq_comm, and_iff_right_iff_imp.2]
      exact fun _ => ⟨(hcopyable.1 hall).2, (hcopyable.1 hall).1, hdone.1 hempty⟩
    · rw [if_pos hempty]
      exact iff_of_false nofun fun h => hempty (hdone.2 h.1.complete)

theorem ascending_main {source : List ZipEntry} (h : (source.map (·.name)).Nodup)
    (compiled : JString → List UInt8) : Ascending ((sorted source).map (replaced compiled REPLACEMENTS)) := by
  have hsorted : (sorted source).Pairwise fun entry other => nameLe entry.name other.name = true :=
    List.pairwise_mergeSort (fun a b c => nameLe_trans a.name b.name c.name)
      (fun a b => nameLe_total a.name b.name) source
  have hdistinct : (sorted source).Pairwise fun entry other => entry.name ≠ other.name :=
    List.pairwise_map.1 ((map_name_sorted_perm source).nodup_iff.2 h)
  rw [Ascending, List.pairwise_map]
  refine (hsorted.and hdistinct).imp fun {entry other} ⟨hle, hne⟩ => ?_
  simp only [replaced_name]
  have hinjective : Function.Injective (List.map UInt16.toNat) :=
    List.map_injective_iff.2 fun _ _ => UInt16.toNat_inj.1
  simp only [nameLe, decide_eq_true_eq] at hle
  exact lt_of_le_of_ne hle (hinjective.ne hne)

theorem Ascending.eq_of_perm {output output' : List ZipEntry} (h : Ascending output) (h' : Ascending output')
    (hperm : output'.Perm output) : output' = output :=
  hperm.eq_of_pairwise (fun _ _ _ _ hlt hlt' => absurd hlt' (lt_asymm hlt)) h' h

/-- **An archive is patched exactly when no name is there twice, none is of a
signature, and both handlers are there**; and what comes out is every entry under its
name, in ascending order, the handlers as compiled and the others as they were, whatever
the order they went in. -/
theorem main_eq (source : List ZipEntry) (compiled : JString → List UInt8) :
    ((∃ output, main source compiled = .ok output) ↔ Patchable source) ∧
      ∀ output, main source compiled = .ok output →
        output.Perm (source.map (replaced compiled REPLACEMENTS)) ∧ Ascending output ∧
          ∀ source' output', main source' compiled = .ok output' →
            (∀ entry, entry ∈ source' ↔ entry ∈ source) →
            output' = output := by
  constructor
  · simp only [main_eq_ok, exists_and_left, exists_eq, and_true]
  · intro output h
    obtain ⟨hpatchable, rfl⟩ := main_eq_ok.1 h
    refine ⟨(sorted_perm source).map _, ascending_main hpatchable.distinct compiled, ?_⟩
    intro source' output' h' hsame
    obtain ⟨hpatchable', rfl⟩ := main_eq_ok.1 h'
    have hperm : source'.Perm source :=
      (List.perm_ext_iff_of_nodup hpatchable'.distinct.of_map hpatchable.distinct.of_map).2 hsame
    refine (ascending_main hpatchable.distinct compiled).eq_of_perm
      (ascending_main hpatchable'.distinct compiled) ?_
    exact ((sorted_perm source').trans (hperm.trans (sorted_perm source).symm)).map _

end PatchJar

end CartyxInfra.Images
