/-
A reader of YAML texts in block style.

A key is plain or quoted and ends at its first colon with a blank behind it. A
scalar is folded over its lines, a block is as far indented as its first line.
No value goes on at the start of a line.
-/
import CartyxInfra.Lib.Trim
import CartyxInfra.Lib.Yaml

namespace CartyxInfra.Yaml

/-- A text up to its comment, which begins a line or stands behind a blank. -/
def uncomment : Bool → Line → Line
  | _, [] => []
  | starts, c :: rest => if starts && c == '#' then [] else c :: uncomment (blank c) rest

/-- The quotation mark and the apostrophe. -/
def QUOTES : List Char := [Char.ofNat 34, Char.ofNat 39]

/-- A text up to its first colon with a blank behind it, and what follows. -/
def splitPlain : Line → Option (Line × Line)
  | [] => none
  | c :: rest =>
    if c == ':' && rest.head?.all blank then some ([], rest)
    else (splitPlain rest).map fun (name, value) => (c :: name, value)

/-- The key a line begins with, and what follows its colon. Indented lines,
comments, markers and the items of a sequence begin with none. -/
def splitKey : Line → Option (Line × Line)
  | [] => none
  | c :: rest =>
    if blank c || c == '#' || c == '-' && rest.head?.all blank || marker (c :: rest) then none
    else if QUOTES.contains c then
      match (rest.dropWhile (· != c)).tail.dropWhile blank with
      | ':' :: value =>
        if value.head?.all blank then some (rest.takeWhile (· != c), uncomment false value) else none
      | _ => none
    else (splitPlain (uncomment true (c :: rest))).map fun (name, value) => (name.rdropWhile blank, value)

/-- What a line adds to the scalar it is part of. -/
def content (line : Line) : Line := if empty line then [] else trim blank (uncomment true line)

/-- A scalar without the quotes around it. -/
def unquote (text : Line) : Line :=
  match text with
  | c :: rest => if QUOTES.contains c && rest.getLast? == some c then rest.dropLast else text
  | [] => []

/-- A line is a setting's first where it is a key with a colon. -/
def blockScanner : Scanner := ⟨fun line => (splitKey line).map (·.1), fun _ => false⟩

namespace Setting

variable (setting : Setting)

/-- The text on the line of the key. -/
def inline : Line := ((splitKey setting.header).map fun e => trim blank e.2).getD []

/-- The scalar, folded over all lines. -/
def folded : Line :=
  unquote ([' '].intercalate ((setting.inline :: setting.nested.map content).filter (· ≠ [])))

/-- The spaces that a line begins with. -/
def indentation (line : Line) : Nat := (line.takeWhile (· == ' ')).length

/-- How far the block under a setting is indented: as its first line with content is. -/
def blockIndentation : Nat := ((setting.nested.find? fun line => !empty line).map indentation).getD 0

/-- The settings of the block. -/
def children : List Setting :=
  (blockScanner.settings (setting.nested.map fun line =>
    line.drop (min (indentation line) setting.blockIndentation))).2

/-- What the block says of a name that it has once. -/
def flag (name : Line) : Option Bool :=
  match setting.children.filter fun child => child.key == name with
  | [child] =>
    if child.folded = boolean true then some true else if child.folded = boolean false then some false else none
  | _ => none

end Setting

/-! ## Keys -/

theorem not_plainKey_of_mem : ∀ c ∈ ' ' :: '\t' :: '#' :: '-' :: '.' :: ':' :: QUOTES, plainKey c = false := by
  have hall : (' ' :: '\t' :: '#' :: '-' :: '.' :: ':' :: QUOTES).all (!plainKey ·) = true := by decide
  simpa only [List.all_eq_true, Bool.not_eq_true'] using hall

/-- A character of a key is none that has a meaning of its own. -/
theorem plainKey_ne {c : Char} (h : plainKey c = true) : c ∉ ' ' :: '\t' :: '#' :: '-' :: '.' :: ':' :: QUOTES :=
  fun hmem => by
    rw [not_plainKey_of_mem c hmem] at h
    cases h

theorem uncomment_append {text rest : Line} {starts : Bool} (h : ∀ c ∈ text, blank c = false ∧ c ≠ '#')
    (hne : text ≠ []) : uncomment starts (text ++ rest) = text ++ uncomment false rest := by
  induction text generalizing starts with
  | nil => exact absurd rfl hne
  | cons c text ih =>
    obtain ⟨hblank, hcomment⟩ := h c (.head _)
    rw [List.cons_append, uncomment, if_neg (by simp [hcomment]), hblank]
    cases text with
    | nil => rfl
    | cons c' text =>
      rw [ih (fun c hc => h c (.tail _ hc)) (List.cons_ne_nil _ _)]
      rfl

theorem splitPlain_append {text rest : Line} (h : ':' ∉ text) (hrest : rest.head?.all blank = true) :
    splitPlain (text ++ ':' :: rest) = some (text, rest) := by
  induction text with
  | nil => simp [splitPlain, hrest]
  | cons c text ih =>
    have hcolon : (c == ':') = false := by
      simp only [List.mem_cons, not_or] at h
      simpa using Ne.symm h.1
    rw [List.cons_append, splitPlain, hcolon, ih fun hmem => h (.tail _ hmem)]
    rfl

theorem Name.blank_ne {name : Line} (h : Name name) : ∀ c ∈ name, blank c = false ∧ c ≠ '#' := by
  intro c hc
  have hne := plainKey_ne (h.plain c hc)
  simp only [List.mem_cons, not_or] at hne
  exact ⟨by simp [blank, hne.1, hne.2.1], hne.2.2.1⟩

/-- A key, and what is behind it. -/
theorem splitKey_plain {name rest : Line} (h : Name name) (hrest : rest.head?.all blank = true) :
    splitKey (name ++ ':' :: rest) = some (name, uncomment false rest) := by
  have hcolon : ':' ∉ name := fun hmem => by
    have hplain := h.plain ':' hmem
    exact absurd hplain (by decide)
  have hhead : (uncomment false rest).head?.all blank = true := by
    cases rest with
    | nil => rfl
    | cons c rest => simpa [uncomment] using hrest
  have htrim : name.rdropWhile blank = name :=
    List.rdropWhile_eq_self_iff.2 fun hl => by simp [(h.blank_ne _ (List.getLast_mem hl)).1]
  have hsplit : splitPlain (uncomment true (name ++ ':' :: rest)) = some (name, uncomment false rest) := by
    rw [uncomment_append h.blank_ne h.nonempty, uncomment, if_neg (by simp)]
    exact splitPlain_append hcolon hhead
  cases hname : name with
  | nil => exact absurd hname h.nonempty
  | cons c name' =>
    have hc := plainKey_ne (h.plain c (by simp [hname]))
    simp only [List.mem_cons, not_or] at hc
    have hquote : QUOTES.contains c = false := by simpa using hc.2.2.2.2.2.2
    have hblank : blank c = false := (h.blank_ne c (by simp [hname])).1
    have hdash : ('-' == c) = false := by simpa using Ne.symm hc.2.2.2.1
    have hdot : ('.' == c) = false := by simpa using Ne.symm hc.2.2.2.2.1
    have hmarker : marker (c :: (name' ++ ':' :: rest)) = false := by
      simp [marker, List.isPrefixOf, hdash, hdot]
    rw [hname, List.cons_append] at hsplit
    rw [hname] at htrim
    rw [List.cons_append, splitKey, hsplit, if_neg (by simp [hblank, hc.2.2.1, hc.2.2.2.1, hmarker]), hquote]
    simp [htrim]

theorem splitKey_indented {c : Char} {line : Line} (h : blank c = true) : splitKey (c :: line) = none := by
  simp [splitKey, h]

/-- A line without content, with or without its indentation, begins with no key. -/
theorem splitKey_empty {line : Line} (h : empty line = true) : splitKey line = none := by
  cases line with
  | nil => rfl
  | cons c rest =>
    cases hblank : blank c with
    | true => exact splitKey_indented hblank
    | false =>
      have hdrop : (c :: rest).dropWhile blank = c :: rest := List.dropWhile_cons_of_neg (by simp [hblank])
      simp only [empty, hdrop, Bool.or_eq_true, beq_iff_eq] at h
      have hprefix := List.rdropWhile_prefix blank (c :: rest)
      have hskip : c = '#' ∨ marker (c :: rest) = true := by
        rcases h with (h | h) | h
        · exact .inl h
        · rw [h] at hprefix
          exact .inr (by rw [marker, List.isPrefixOf_iff_prefix.2 hprefix, Bool.true_or])
        · rw [h] at hprefix
          exact .inr (by rw [marker, List.isPrefixOf_iff_prefix.2 hprefix, Bool.or_true])
      rcases hskip with rfl | hmarker
      · simp [splitKey]
      · simp [splitKey, hmarker]

/-! ## Scalars -/

theorem eq_nil_of_trim {text : Line} (h : trim blank text = []) : ∀ c ∈ text, blank c = true := by
  have hpadded : Padded blank (trim blank text) text := padded_trim
  obtain ⟨left, right, hleft, hright, he⟩ := hpadded
  rw [he, h]
  intro c hc
  rcases List.mem_append.1 hc with hc | hc
  · exact hleft c (by simpa using hc)
  · exact hright c hc

/-- A line whose text is blank has no content. -/
theorem empty_of_uncomment {line : Line}
    (h : ∀ c ∈ uncomment true line, blank c = true) : empty line = true := by
  have hskip : ∀ {text : Line}, (∀ c ∈ uncomment true text, blank c = true) →
      text.dropWhile blank = [] ∨ (text.dropWhile blank).head? = some '#' := by
    intro text htext
    induction text with
    | nil => exact .inl rfl
    | cons c text ih =>
      by_cases hc : c = '#'
      · subst hc
        exact .inr rfl
      · rw [uncomment, if_neg (by simp [hc])] at htext
        have hblank := htext c (.head _)
        rw [List.dropWhile_cons_of_pos hblank]
        rw [hblank] at htext
        exact ih fun c' hmem => htext c' (.tail _ hmem)
  unfold empty
  rcases hskip h with hnil | hhead
  · rw [hnil]
  · obtain ⟨rest, hrest⟩ := List.head?_eq_some_iff.1 hhead
    rw [hrest]
    rfl

theorem content_eq_nil_iff {line : Line} : content line = [] ↔ empty line = true := by
  unfold content
  split
  · next h => simp [h]
  · next h => exact iff_of_false (fun htrim => h (empty_of_uncomment (eq_nil_of_trim htrim))) h

theorem not_plainWord_of_mem : ∀ c ∈ ' ' :: '\t' :: '#' :: QUOTES, plainWord c = false := by
  have hall : (' ' :: '\t' :: '#' :: QUOTES).all (!plainWord ·) = true := by decide
  simpa only [List.all_eq_true, Bool.not_eq_true'] using hall

theorem Word.ne {word : Line} (h : Word word) : ∀ c ∈ word, c ∉ ' ' :: '\t' :: '#' :: QUOTES := by
  intro c hc hmem
  have hplain := h.plain c hc
  rw [not_plainWord_of_mem c hmem] at hplain
  cases hplain

theorem Word.blank_ne {word : Line} (h : Word word) : ∀ c ∈ word, blank c = false ∧ c ≠ '#' := by
  intro c hc
  have hne := h.ne c hc
  simp only [List.mem_cons, not_or] at hne
  exact ⟨by simp [blank, hne.1, hne.2.1], hne.2.2.1⟩

theorem Word.trim_eq {word : Line} (h : Word word) : trim blank (' ' :: word) = word := by
  have hcore : Padded blank word (' ' :: word) := ⟨[' '], [], by simp [blank], nofun, by simp⟩
  rw [hcore.trim_eq, trim]
  have hdrop : word.dropWhile blank = word := by
    cases word with
    | nil => rfl
    | cons c word => exact List.dropWhile_cons_of_neg (by simp [(h.blank_ne c (.head _)).1])
  rw [hdrop]
  exact List.rdropWhile_eq_self_iff.2 fun hl => by simp [(h.blank_ne _ (List.getLast_mem hl)).1]

theorem splitKey_entry {name word : Line} (hname : Name name) (hword : Word word) :
    splitKey (entry name word) = some (name, ' ' :: word) := by
  have htext : uncomment true (word ++ []) = word ++ uncomment false [] :=
    uncomment_append hword.blank_ne hword.nonempty
  rw [List.append_nil, uncomment, List.append_nil] at htext
  rw [entry, splitKey_plain hname (by rfl), uncomment]
  simp [blank, htext]

theorem unquote_word {word : Line} (h : Word word) {rest : Line} : unquote (word ++ rest) = word ++ rest := by
  cases word with
  | nil => exact absurd rfl h.nonempty
  | cons c word =>
    have hc := h.ne c (.head _)
    simp only [List.mem_cons, not_or] at hc
    have hquote : QUOTES.contains c = false := by simpa using hc.2.2.2
    rw [List.cons_append, unquote, hquote]
    simp

/-- A word on the line of its key is the scalar if and only if no other line adds to it. -/
theorem folded_entry {name word : Line} {nested : List Line} (hname : Name name) (hword : Word word) :
    Setting.folded ⟨name, entry name word, nested⟩ = word ↔ ∀ line ∈ nested, empty line = true := by
  have hinline : Setting.inline ⟨name, entry name word, nested⟩ = word := by
    simp [Setting.inline, splitKey_entry hname hword, hword.trim_eq]
  have hadds : (nested.map content).filter (· ≠ []) = [] ↔ ∀ line ∈ nested, empty line = true := by
    simp [List.filter_eq_nil_iff, content_eq_nil_iff]
  rw [Setting.folded, hinline, List.filter_cons_of_pos (by simpa using hword.nonempty), ← hadds]
  cases (nested.map content).filter (· ≠ []) with
  | nil =>
    have hquote : unquote (word ++ []) = word ++ [] := unquote_word hword
    simpa using hquote
  | cons text texts =>
    rw [List.intercalate_cons_cons, List.append_assoc, unquote_word hword]
    refine iff_of_false (fun h => ?_) (by simp)
    have hlength := congrArg List.length h
    simp at hlength

/-! ## Blocks -/

/-- A key and a word, as a setting. -/
def entrySetting (e : Line × Line) : Setting := ⟨e.1, entry e.1 e.2, []⟩

theorem indentation_entry {name word : Line} (h : Name name) :
    Setting.indentation ("    ".toList ++ entry name word) = 4 := by
  cases name with
  | nil => exact absurd rfl h.nonempty
  | cons c name =>
    have hc := (h.blank_ne c (.head _)).1
    have hspace : (c == ' ') = false := by
      simp only [blank, Bool.or_eq_false_iff] at hc
      exact hc.1
    simp [Setting.indentation, entry, hspace]

theorem empty_entry {name word : Line} (h : Name name) : empty ("    ".toList ++ entry name word) = false := by
  cases name with
  | nil => exact absurd rfl h.nonempty
  | cons c name =>
    obtain ⟨hblank, hcomment⟩ := h.blank_ne c (.head _)
    have hdrop : ("    ".toList ++ entry (c :: name) word).dropWhile blank = c :: (name ++ ':' :: ' ' :: word) :=
      (List.dropWhile_append_of_pos (List.all_eq_true.1 (by decide))).trans
        (List.dropWhile_cons_of_neg (by simp [hblank]))
    have hprefix := List.rdropWhile_prefix blank ("    ".toList ++ entry (c :: name) word)
    have hmark : ∀ d mark : _, d ≠ ' ' →
        (("    ".toList ++ entry (c :: name) word).rdropWhile blank == d :: mark) = false := by
      intro d mark hd
      refine beq_eq_false_iff_ne.2 fun he => ?_
      rw [he] at hprefix
      exact hd (List.cons_prefix_cons.1 hprefix).1
    have hdash : (("    ".toList ++ entry (c :: name) word).rdropWhile blank == "---".toList) = false :=
      hmark '-' _ (by decide)
    have hdots : (("    ".toList ++ entry (c :: name) word).rdropWhile blank == "...".toList) = false :=
      hmark '.' _ (by decide)
    rw [empty, hdrop]
    simp only [hdash, hdots, Bool.or_false]
    simpa using hcomment

theorem blockIndentation_block {key header : Line} {entries : List (Line × Line)}
    (h : ∀ e ∈ entries, Name e.1 ∧ Word e.2) (hne : entries ≠ []) :
    Setting.blockIndentation ⟨key, header, block entries⟩ = 4 := by
  cases entries with
  | nil => exact absurd rfl hne
  | cons e entries =>
    have he := (h e (.head _)).1
    rw [Setting.blockIndentation, block, List.map_cons,
      List.find?_cons_of_pos (by rw [empty_entry he]; rfl), Option.map_some, indentation_entry he]
    rfl

theorem children_block {key header : Line} {entries : List (Line × Line)}
    (h : ∀ e ∈ entries, Name e.1 ∧ Word e.2) :
    Setting.children ⟨key, header, block entries⟩ = entries.map entrySetting := by
  have hlines : (block entries).map (fun line => line.drop (min (Setting.indentation line)
      (Setting.blockIndentation ⟨key, header, block entries⟩))) =
        (entries.map entrySetting).flatMap Setting.lines := by
    rw [block, List.map_map, List.flatMap_map, List.map_eq_flatMap]
    refine List.flatMap_congr fun e he => ?_
    have hindent : Setting.blockIndentation ⟨key, header, block entries⟩ = 4 :=
      blockIndentation_block h (List.ne_nil_of_mem he)
    rw [block] at hindent
    simp only [Function.comp_apply, hindent, indentation_entry (h e he).1]
    rfl
  have hlaid : blockScanner.Laid (entries.map entrySetting) := by
    refine ⟨fun setting hmem => ?_, fun _ _ => rfl⟩
    obtain ⟨e, he, rfl⟩ := List.mem_map.1 hmem
    exact Scanner.reads_of_none (by simp [blockScanner, entrySetting, splitKey_entry (h e he).1 (h e he).2]) nofun
  have hread : blockScanner.settings ([] ++ (entries.map entrySetting).flatMap Setting.lines) = _ :=
    Scanner.settings_eq nofun hlaid
  rw [Setting.children, hlines, ← List.nil_append (List.flatMap _ _), hread]

theorem filter_fst {entries : List (Line × Line)} {name word : Line} (hnodup : (entries.map (·.1)).Nodup)
    (hmem : (name, word) ∈ entries) : entries.filter (fun e => e.1 == name) = [(name, word)] := by
  induction entries with
  | nil => cases hmem
  | cons e entries ih =>
    rw [List.map_cons, List.nodup_cons] at hnodup
    rcases List.mem_cons.1 hmem with rfl | hmem
    · have hnil : entries.filter (fun e => e.1 == name) = [] := List.filter_eq_nil_iff.2 fun e he hname =>
        hnodup.1 (List.mem_map.2 ⟨e, he, by simpa using hname⟩)
      simp [hnil]
    · have hne : (e.1 == name) = false := beq_eq_false_iff_ne.2 fun he =>
        hnodup.1 (List.mem_map.2 ⟨(name, word), hmem, he.symm⟩)
      rw [List.filter_cons, hne]
      simpa using ih hnodup.2 hmem

theorem flag_block {key header name : Line} {entries : List (Line × Line)} {b : Bool}
    (h : ∀ e ∈ entries, Name e.1 ∧ Word e.2) (hnodup : (entries.map (·.1)).Nodup)
    (hmem : (name, boolean b) ∈ entries) : Setting.flag ⟨key, header, block entries⟩ name = some b := by
  obtain ⟨hname, hword⟩ := h _ hmem
  have hfolded : (entrySetting (name, boolean b)).folded = boolean b := (folded_entry hname hword).2 nofun
  have hfilter : ((entries.map entrySetting).filter fun child => child.key == name) =
      [entrySetting (name, boolean b)] := by
    rw [List.filter_map]
    exact congrArg (List.map entrySetting) (filter_fst hnodup hmem)
  rw [Setting.flag, children_block h, hfilter]
  simp only [hfolded]
  cases b <;> rfl

/-- A setting with nothing under it has no block. -/
theorem children_of_empty {setting : Setting} (h : ∀ line ∈ setting.nested, empty line = true) :
    setting.children = [] := by
  have hindent : setting.blockIndentation = 0 := by
    rw [Setting.blockIndentation, List.find?_eq_none.2 fun line hmem => by simp [h line hmem]]
    rfl
  have hlines : (setting.nested.map fun line =>
      line.drop (min (Setting.indentation line) setting.blockIndentation)) = setting.nested := by
    simp [hindent]
  have hfront : ∀ line ∈ setting.nested, blockScanner.key line = none := fun line hmem => by
    simp [blockScanner, splitKey_empty (h line hmem)]
  have hlaid : blockScanner.Laid [] := ⟨nofun, nofun⟩
  have hread := Scanner.settings_eq hfront hlaid
  rw [List.flatMap_nil, List.append_nil] at hread
  rw [Setting.children, hlines, hread]

/-- The reader of texts in block style. -/
def blockStyle : Reader where
  toScanner := blockScanner
  scalar setting := if setting.children.isEmpty then some setting.folded else none
  flag := Setting.flag
  key_plain hname hrest := by simp [blockScanner, splitKey_plain hname hrest]
  key_indented h := by simp [blockScanner, splitKey_indented h]
  key_empty h := by simp [blockScanner, splitKey_empty h]
  goesOn_entry _ _ _ := rfl
  scalar_entry hname hword _ := by
    rw [← folded_entry hname hword]
    refine ⟨fun h => ?_, fun h => ?_⟩
    · rw [Option.ite_none_right_eq_some] at h
      exact Option.some.inj h.2
    · rw [children_of_empty fun line hmem => (folded_entry hname hword).1 h line hmem, h]
      rfl
  goesOn_block _ _ := rfl
  flag_block _ := flag_block

end CartyxInfra.Yaml
