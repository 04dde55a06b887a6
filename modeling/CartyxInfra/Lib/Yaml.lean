/-
The top level of a YAML text, as a reader goes over its lines.

A setting is a line that begins with its key, and the lines up to the next
such line; where a value goes on at the start of a line, in quotation marks or
in brackets, no key begins there. `Reader` has what a document's writer relies
on, whatever the forms of the other values are.
-/
import Mathlib.Data.List.DropRight

namespace CartyxInfra.Yaml

/-- A line of a text. -/
abbrev Line := List Char

/-- A blank within a line. -/
def blank (c : Char) : Bool := c == ' ' || c == '\t'

/-- A key of a document's mapping: its line, and the lines behind it that are its value's. -/
structure Setting where
  key : Line
  header : Line
  nested : List Line
  deriving DecidableEq

/-- The lines of a setting. -/
def Setting.lines (setting : Setting) : List Line := setting.header :: setting.nested

/-! ## Lines -/

/-- The markers of a document. -/
def marker (line : Line) : Bool := "---".toList.isPrefixOf line || "...".toList.isPrefixOf line

/-- A blank line, a comment, or a marker by itself. -/
def empty (line : Line) : Bool :=
  match line.dropWhile blank with
  | [] => true
  | c :: _ => c == '#' || line.rdropWhile blank == "---".toList || line.rdropWhile blank == "...".toList

/-- A character of a plain key. -/
def plainKey (c : Char) : Bool := c.isLower || c == '_'

/-- A key that needs no quotes. -/
structure Name (name : Line) : Prop where
  nonempty : name ≠ []
  plain : ∀ c ∈ name, plainKey c = true

/-- A character of a plain word. -/
def plainWord (c : Char) : Bool := c.isAlphanum || c == '_' || c == '/' || c == '.'

/-- A scalar that needs no quotes. -/
structure Word (word : Line) : Prop where
  nonempty : word ≠ []
  plain : ∀ c ∈ word, plainWord c = true

/-- A key with a word behind it. -/
def entry (name word : Line) : Line := name ++ ':' :: ' ' :: word

/-- The lines of a block of such entries. -/
def block (entries : List (Line × Line)) : List Line := entries.map fun e => "    ".toList ++ entry e.1 e.2

/-- A boolean as it is written. -/
def boolean : Bool → Line
  | true => "true".toList
  | false => "false".toList

/-! ## Readers -/

/-- How a text is cut into its settings. -/
structure Scanner where
  /-- The key a line begins with, where no value goes on. -/
  key : Line → Option Line
  /-- Whether the value of a setting goes on at the start of the next line. -/
  goesOn : Setting → Bool

namespace Scanner

variable (scanner : Scanner)

/-- The key that a line behind a setting begins with. -/
def next (setting : Setting) (line : Line) : Option Line :=
  if scanner.goesOn setting then none else scanner.key line

/-- The settings, from one on of which the first lines are read. -/
def scan (setting : Setting) : List Line → List Setting
  | [] => [setting]
  | line :: lines =>
    match scanner.next setting line with
    | some key => setting :: scan ⟨key, line, []⟩ lines
    | none => scan { setting with nested := setting.nested ++ [line] } lines

/-- The lines before the first setting, and the settings. -/
def settings : List Line → List Line × List Setting
  | [] => ([], [])
  | line :: lines =>
    match scanner.key line with
    | some key => ([], scanner.scan ⟨key, line, []⟩ lines)
    | none => (line :: (settings lines).1, (settings lines).2)

end Scanner

/-- What is relied on of a reader. -/
structure Reader extends Scanner where
  /-- The text of a setting's scalar. -/
  scalar : Setting → Option Line
  /-- What a setting's block says of a name, if that is true or false. -/
  flag : Setting → Line → Option Bool
  /-- A plain key ends at a colon with a blank behind it. -/
  key_plain : ∀ {name rest : Line}, Name name → rest.head?.all blank = true →
    key (name ++ ':' :: rest) = some name
  key_indented : ∀ {c : Char} {line : Line}, blank c = true → key (c :: line) = none
  key_empty : ∀ {line : Line}, empty line = true → key line = none
  /-- A value that begins as a plain scalar goes on at the start of no line. -/
  goesOn_entry : ∀ {name word : Line} {nested : List Line}, Name name → Word word →
    (∀ line ∈ nested, key line = none ∧ (marker line = true → empty line = true)) →
      goesOn ⟨name, entry name word, nested⟩ = false
  /-- A plain scalar takes up what is under it. -/
  scalar_entry : ∀ {name word : Line} {nested : List Line}, Name name → Word word →
    (∀ line ∈ nested, key line = none ∧ (marker line = true → empty line = true)) →
      (scalar ⟨name, entry name word, nested⟩ = some word ↔ ∀ line ∈ nested, empty line = true)
  goesOn_block : ∀ {name : Line} {entries : List (Line × Line)}, Name name →
    (∀ e ∈ entries, Name e.1 ∧ Word e.2) → goesOn ⟨name, name ++ [':'], block entries⟩ = false
  flag_block : ∀ {name name' : Line} {entries : List (Line × Line)} {b : Bool}, Name name →
    (∀ e ∈ entries, Name e.1 ∧ Word e.2) → (entries.map (·.1)).Nodup → (name', boolean b) ∈ entries →
      flag ⟨name, name ++ [':'], block entries⟩ name' = some b

/-! ## Lines and settings -/

namespace Scanner

variable {scanner : Scanner} {setting setting' : Setting} {lines : List Line}

/-- A setting as it is read. -/
structure Reads (scanner : Scanner) (setting : Setting) : Prop where
  header : scanner.key setting.header = some setting.key
  nested : scanner.scan ⟨setting.key, setting.header, []⟩ setting.nested = [setting]

/-- Settings that are read one behind the other. -/
structure Laid (scanner : Scanner) (all : List Setting) : Prop where
  reads : ∀ setting ∈ all, scanner.Reads setting
  ended : ∀ setting ∈ all.dropLast, scanner.goesOn setting = false

theorem scan_ne_nil : scanner.scan setting lines ≠ [] := by
  induction lines generalizing setting with
  | nil => exact List.cons_ne_nil _ _
  | cons line lines ih =>
    rw [scan]
    split
    · exact List.cons_ne_nil _ _
    · exact ih

/-- Lines that are read as one setting's are read so with others behind them. -/
theorem scan_append {rest : List Line} (h : scanner.scan setting lines = [setting']) :
    scanner.scan setting (lines ++ rest) = scanner.scan setting' rest := by
  induction lines generalizing setting with
  | nil =>
    obtain rfl : setting = setting' := by simpa [scan] using h
    rfl
  | cons line lines ih =>
    rw [List.cons_append, scan]
    rw [scan] at h
    split
    · next key hkey =>
      simp only [hkey, List.cons.injEq] at h
      exact absurd h.2 scan_ne_nil
    · next hkey =>
      simp only [hkey] at h
      exact ih h

/-- Lines without a key are read as one setting's. -/
theorem scan_of_none (h : ∀ line ∈ lines, scanner.key line = none) :
    scanner.scan setting lines = [{ setting with nested := setting.nested ++ lines }] := by
  induction lines generalizing setting with
  | nil => simp [scan]
  | cons line lines ih =>
    have hnext : scanner.next setting line = none := by
      unfold next
      split
      · rfl
      · exact h line (.head _)
    rw [scan, hnext]
    simp only [ih fun line hmem => h line (.tail _ hmem), List.append_assoc, List.singleton_append]

theorem reads_of_none (hkey : scanner.key setting.header = some setting.key)
    (h : ∀ line ∈ setting.nested, scanner.key line = none) : scanner.Reads setting :=
  ⟨hkey, scan_of_none h⟩

/-- Settings are read back from their lines. -/
theorem scan_flatMap {all : List Setting} (hread : scanner.Reads setting) (h : scanner.Laid (setting :: all)) :
    scanner.scan setting (all.flatMap Setting.lines) = setting :: all := by
  induction all generalizing setting with
  | nil => rfl
  | cons next all ih =>
    have hnext := h.reads next (by simp)
    have hended : scanner.goesOn setting = false := h.ended setting (by simp)
    rw [List.flatMap_cons, Setting.lines, List.cons_append, scan, Scanner.next, hended]
    simp only [Bool.false_eq_true, if_false, hnext.header]
    rw [scan_append hnext.nested, ih hnext]
    refine ⟨fun setting' hmem => h.reads setting' (.tail _ hmem), fun setting' hmem => h.ended setting' ?_⟩
    rw [List.dropLast_cons_of_ne_nil (List.cons_ne_nil _ _)]
    exact .tail _ hmem

theorem settings_eq {front : List Line} {all : List Setting} (hfront : ∀ line ∈ front, scanner.key line = none)
    (h : scanner.Laid all) : scanner.settings (front ++ all.flatMap Setting.lines) = (front, all) := by
  induction front with
  | nil =>
    cases all with
    | nil => rfl
    | cons setting all =>
      have hread := h.reads setting (.head _)
      rw [List.nil_append, List.flatMap_cons, Setting.lines, List.cons_append, settings, hread.header]
      simp only [scan_append hread.nested, scan_flatMap hread h]
  | cons line front ih =>
    rw [List.cons_append, settings, hfront line (.head _)]
    simp only [ih fun line hmem => hfront line (.tail _ hmem)]

theorem laid_scan (lines : List Line) (hread : scanner.Reads setting) : scanner.Laid (scanner.scan setting lines) ∧
    (scanner.scan setting lines).flatMap Setting.lines = setting.lines ++ lines := by
  induction lines generalizing setting with
  | nil =>
    refine ⟨⟨fun setting' hmem => ?_, nofun⟩, by simp [scan]⟩
    rw [List.mem_singleton.1 hmem]
    exact hread
  | cons line lines ih =>
    rw [scan]
    split
    · next key hkey =>
      have hended : scanner.goesOn setting = false ∧ scanner.key line = some key := by
        unfold next at hkey
        split at hkey
        · cases hkey
        · next hended => exact ⟨by simpa using hended, hkey⟩
      have hnext : scanner.Reads ⟨key, line, []⟩ := ⟨hended.2, rfl⟩
      obtain ⟨hlaid, hlines⟩ := ih hnext
      refine ⟨⟨fun setting' hmem => ?_, fun setting' hmem => ?_⟩, ?_⟩
      · rcases List.mem_cons.1 hmem with rfl | hmem
        · exact hread
        · exact hlaid.reads setting' hmem
      · rw [List.dropLast_cons_of_ne_nil scan_ne_nil] at hmem
        rcases List.mem_cons.1 hmem with rfl | hmem
        · exact hended.1
        · exact hlaid.ended setting' hmem
      · rw [List.flatMap_cons, hlines]
        rfl
    · next hkey =>
      have hstep : scanner.scan setting [line] = [{ setting with nested := setting.nested ++ [line] }] := by
        simp [scan, hkey]
      have hlonger : scanner.Reads { setting with nested := setting.nested ++ [line] } :=
        ⟨hread.header, (scan_append hread.nested).trans hstep⟩
      obtain ⟨hlaid, hlines⟩ := ih hlonger
      refine ⟨hlaid, ?_⟩
      rw [hlines]
      simp [Setting.lines]

/-- The lines are those of the settings, behind those before the first. -/
theorem laid_settings (lines : List Line) : (∀ line ∈ (scanner.settings lines).1, scanner.key line = none) ∧
    scanner.Laid (scanner.settings lines).2 ∧
      (scanner.settings lines).1 ++ (scanner.settings lines).2.flatMap Setting.lines = lines := by
  induction lines with
  | nil => exact ⟨nofun, ⟨nofun, nofun⟩, rfl⟩
  | cons line lines ih =>
    rw [settings]
    split
    · next key hkey =>
      have hread : scanner.Reads ⟨key, line, []⟩ := ⟨hkey, rfl⟩
      obtain ⟨hlaid, hlines⟩ := laid_scan lines hread
      exact ⟨nofun, hlaid, hlines⟩
    · next hkey =>
      obtain ⟨hfront, hlaid, hlines⟩ := ih
      refine ⟨fun line' hmem => ?_, hlaid, congrArg (line :: ·) hlines⟩
      rcases List.mem_cons.1 hmem with rfl | hmem
      · exact hkey
      · exact hfront line' hmem

end Scanner

end CartyxInfra.Yaml
