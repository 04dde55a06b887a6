/-
Substitution in a text of lines, by patterns that match at the start of a
line only: what they do to the list of its lines.

A pattern may take a whole line (`sub_wholeLine`), or all lines up to one that
looks like a header (`sub_block`); a block with no header after it is left.
-/
import Mathlib.Data.List.TakeWhile
import CartyxInfra.Lib.Regex

namespace CartyxInfra.Regex

variable {α : Type} {newline : α} {line : List α} {lines : List (List α)} {before : Option α}

/-- The text after a line: the lines that follow it, each behind a newline. -/
def follow (newline : α) (lines : List (List α)) : List α := lines.flatMap fun line => newline :: line

@[simp] theorem follow_nil : follow newline [] = [] := rfl

@[simp] theorem follow_cons :
    follow newline (line :: lines) = newline :: (line ++ follow newline lines) := rfl

/-- The text of some lines. -/
def unlines (newline : α) (lines : List (List α)) : List α := [newline].intercalate lines

theorem unlines_cons : ∀ {lines : List (List α)} {line : List α},
    unlines newline (line :: lines) = line ++ follow newline lines
  | [], line => by simp [unlines]
  | next :: lines, line => by
    have ih : unlines newline (next :: lines) = next ++ follow newline lines := unlines_cons
    rw [unlines] at ih
    rw [unlines, List.intercalate_cons_cons, ih]
    simp

theorem unlines_cons_of_ne_nil (h : lines ≠ []) :
    unlines newline (line :: lines) = line ++ newline :: unlines newline lines := by
  cases lines with
  | nil => exact absurd rfl h
  | cons next lines => rw [unlines_cons, unlines_cons, follow_cons]

theorem unlines_append {left : List (List α)} (hleft : left ≠ []) : ∀ {block : List (List α)}, block ≠ [] →
    unlines newline (block ++ left) = unlines newline block ++ newline :: unlines newline left
  | [line], _ => by
    rw [List.singleton_append, unlines_cons_of_ne_nil hleft, unlines_cons, follow_nil, List.append_nil]
  | line :: line' :: block, _ => by
    have ih := unlines_append hleft (List.cons_ne_nil line' block)
    rw [List.cons_append, unlines_cons_of_ne_nil (by simp), ih,
      unlines_cons_of_ne_nil (List.cons_ne_nil line' block)]
    simp

/-! ## The lines of a text -/

section Split

variable [DecidableEq α]

theorem not_mem_of_mem_splitOn {text : List α} : ∀ {line : List α}, line ∈ text.splitOn newline →
    newline ∉ line := by
  induction text with
  | nil =>
    intro line h
    rw [List.splitOn_nil, List.mem_singleton] at h
    simp [h]
  | cons c text ih =>
    intro line h
    rw [List.splitOn_cons_eq_if_modifyHead] at h
    split at h
    · rcases List.mem_cons.1 h with rfl | h
      · exact List.not_mem_nil
      · exact ih h
    · next hne =>
      cases hlines : text.splitOn newline with
      | nil => exact absurd hlines (List.splitOn_ne_nil newline text)
      | cons next lines =>
        rw [hlines] at ih h
        rw [List.modifyHead_cons, List.mem_cons] at h
        rcases h with rfl | h
        · have hc : newline ≠ c := fun he => hne (by simp [he])
          simp [hc, ih (.head _)]
        · exact ih (.tail _ h)

theorem unlines_splitOn (text : List α) : unlines newline (text.splitOn newline) = text :=
  List.intercalate_splitOn newline

theorem splitOn_unlines (hne : lines ≠ []) (hlines : ∀ line ∈ lines, newline ∉ line) :
    (unlines newline lines).splitOn newline = lines :=
  List.splitOn_intercalate newline hlines hne

end Split

/-- Nothing or a newline before. -/
def Starts (newline : α) (before : Option α) : Prop := before = none ∨ before = some newline

theorem not_starts_some {c : α} (h : c ≠ newline) : ¬ Starts newline (some c) := by
  simp [Starts, h]

theorem not_starts_lastOf : ∀ {text : List α} {c : α} {before : Option α}, newline ∉ c :: text →
    ¬ Starts newline (lastOf before (c :: text))
  | [], _, _, h => not_starts_some fun he => h (he ▸ .head _)
  | next :: text, c, _, h => show ¬ Starts newline (lastOf (some c) (next :: text)) from
    not_starts_lastOf fun hmem => h (.tail _ hmem)

/-- A text without newlines is a prefix of a line if it is of the line and what follows. -/
theorem prefix_follow_iff : ∀ {text line : List α}, newline ∉ text →
    (text <+: line ++ follow newline lines ↔ text <+: line)
  | [], _, _ => by simp
  | c :: text, [], h => by
    have hc : newline ≠ c := fun he => h (he ▸ .head _)
    cases lines with
    | nil => simp
    | cons next lines => simp [Ne.symm hc]
  | c :: text, c' :: line, h => by
    rw [List.cons_append, List.cons_prefix_cons, List.cons_prefix_cons,
      prefix_follow_iff fun hmem => h (.tail _ hmem)]

/-! ## Patterns for lines -/

variable [DecidableEq α] {text : List α} {r : Regex α}

/-- A text at the start of a line, and what an expression matches after it. -/
def Pattern.ofLine (newline : α) (text : List α) (hne : text ≠ []) (r : Regex α) : Pattern α where
  regex := .seq (.lineStart newline) (.seq (lit text) r)
  consumes place stop h := by
    simp only [ends, List.mem_flatMap] at h
    obtain ⟨start, hstart, middle, hmiddle, hstop⟩ := h
    split at hstart
    · rw [List.mem_singleton] at hstart
      subst hstart
      have hlength := congrArg List.length (mem_ends_lit.1 hmiddle).1
      have hle := length_le_of_mem_ends hstop
      have hpos := List.length_pos_iff.2 hne
      rw [List.length_append] at hlength
      omega
    · cases hstart

variable {hne : text ≠ []} {replacement : List α} {rest : List α}

theorem ends_ofLine_of_not_starts (h : ¬ Starts newline before) :
    ends (Pattern.ofLine newline text hne r).regex ⟨before, rest⟩ = [] := by
  have hstart : ¬ (before = none ∨ before = some newline) := h
  simp only [Pattern.ofLine, ends, if_neg hstart, List.flatMap_nil]

theorem ends_ofLine_of_not_begins (h : ¬ text <+: rest) :
    ends (Pattern.ofLine newline text hne r).regex ⟨before, rest⟩ = [] := by
  rw [Pattern.ofLine, ends, ends]
  split
  · simp [ends, ends_lit_eq_nil h]
  · rfl

theorem ends_ofLine (h : Starts newline before) :
    ends (Pattern.ofLine newline text hne r).regex ⟨before, text ++ rest⟩ =
      ends r ⟨lastOf before text, rest⟩ := by
  have hstart : before = none ∨ before = some newline := h
  simp only [Pattern.ofLine, ends, if_pos hstart, List.flatMap_cons, List.flatMap_nil, List.append_nil,
    ends_lit_append]

theorem subAt_within {c : α} (h : newline ∉ c :: line) :
    (Pattern.ofLine newline text hne r).subAt replacement ⟨some c, line ++ rest⟩ =
      line ++ (Pattern.ofLine newline text hne r).subAt replacement ⟨lastOf (some c) line, rest⟩ := by
  induction line generalizing c with
  | nil => rfl
  | cons c' line ih =>
    have hc : c ≠ newline := fun he => h (he ▸ .head _)
    rw [List.cons_append, Pattern.subAt_step (ends_ofLine_of_not_starts (not_starts_some hc)),
      ih fun hmem => h (.tail _ hmem)]
    rfl

/-- A line where there is no match is left, and the next one looked at. -/
theorem subAt_miss (hnl : newline ∉ line)
    (h : ends (Pattern.ofLine newline text hne r).regex ⟨before, line ++ rest⟩ = []) :
    (Pattern.ofLine newline text hne r).subAt replacement ⟨before, line ++ rest⟩ =
      line ++ (Pattern.ofLine newline text hne r).subAt replacement ⟨lastOf before line, rest⟩ := by
  cases line with
  | nil => rfl
  | cons c line =>
    rw [List.cons_append] at h ⊢
    rw [Pattern.subAt_step h, subAt_within hnl]
    rfl

theorem subAt_follow_nil :
    (Pattern.ofLine newline text hne r).subAt replacement ⟨before, follow newline []⟩ = [] :=
  Pattern.subAt_end (ends_ofLine_of_not_begins fun h => hne (List.prefix_nil.1 h))

theorem subAt_follow_cons (htext : newline ∉ text) :
    (Pattern.ofLine newline text hne r).subAt replacement ⟨before, follow newline (line :: lines)⟩ =
      newline :: (Pattern.ofLine newline text hne r).subAt replacement
        ⟨some newline, line ++ follow newline lines⟩ := by
  refine Pattern.subAt_step (ends_ofLine_of_not_begins fun h => hne ?_)
  have hnil : text <+: [] ++ follow newline (line :: lines) := h
  exact List.prefix_nil.1 ((prefix_follow_iff htext).1 hnil)

/-! ## A line at a time -/

/-- A line that a pattern for whole lines has matched. -/
def replaceLine (text replacement line : List α) : List α :=
  if text.isPrefixOf line then replacement else line

/-- The rest of the line. -/
def restOfLine (newline : α) : Regex α := .seq (.many fun c => c != newline) (.lineEnd newline)

theorem head_ends_restOfLine {left : List α} (hnl : newline ∉ left) :
    (ends (restOfLine newline) ⟨before, left ++ follow newline lines⟩).head? =
      some ⟨lastOf before left, follow newline lines⟩ := by
  have hhead : ∀ c ∈ (follow newline lines).head?, (c != newline) = false := by
    cases lines <;> simp
  have hleft : ∀ c ∈ left, (c != newline) = true := fun c hc => by
    simpa using fun he : c = newline => hnl (he ▸ hc)
  have hfirst : (farthestFirst (· != newline) before (left ++ follow newline lines)).head? =
      some ⟨lastOf before left, follow newline lines⟩ := head_farthestFirst hleft hhead
  obtain ⟨places, hplaces⟩ := List.head?_eq_some_iff.1 hfirst
  have hend : follow newline lines = [] ∨ (follow newline lines).head? = some newline := by
    cases lines <;> simp
  simp only [restOfLine, ends, hplaces, List.flatMap_cons, if_pos hend, List.singleton_append,
    List.head?_cons]

/-- From the start of a line on, every line that starts with the text is replaced. -/
theorem subAt_wholeLine (htext : newline ∉ text) :
    ∀ {lines : List (List α)} {line : List α} {before : Option α},
    Starts newline before → newline ∉ line → (∀ line ∈ lines, newline ∉ line) →
      (Pattern.ofLine newline text hne (restOfLine newline)).subAt replacement
          ⟨before, line ++ follow newline lines⟩ =
        replaceLine text replacement line ++ follow newline (lines.map (replaceLine text replacement))
  | lines, line, before, hstart, hline, hlines => by
    have hnext : ∀ before, (Pattern.ofLine newline text hne (restOfLine newline)).subAt replacement
        ⟨before, follow newline lines⟩ = follow newline (lines.map (replaceLine text replacement)) := by
      intro before
      cases lines with
      | nil => exact subAt_follow_nil
      | cons next lines =>
        rw [subAt_follow_cons htext, subAt_wholeLine htext (.inr rfl) (hlines next (.head _))
          fun line hmem => hlines line (.tail _ hmem)]
        rfl
    by_cases hbegins : text <+: line
    · obtain ⟨left, rfl⟩ := hbegins
      have hmatch : (ends (Pattern.ofLine newline text hne (restOfLine newline)).regex
          ⟨before, text ++ left ++ follow newline lines⟩).head? =
            some ⟨lastOf (lastOf before text) left, follow newline lines⟩ := by
        rw [List.append_assoc, ends_ofLine hstart]
        exact head_ends_restOfLine fun hmem => hline (List.mem_append_right _ hmem)
      rw [Pattern.subAt_match hmatch, hnext, replaceLine, if_pos (by simp)]
    · have hmiss : ends (Pattern.ofLine newline text hne (restOfLine newline)).regex
          ⟨before, line ++ follow newline lines⟩ = [] :=
        ends_ofLine_of_not_begins (mt (prefix_follow_iff htext).1 hbegins)
      rw [subAt_miss hline hmiss, hnext, replaceLine, if_neg (by simpa using hbegins)]

/-- **A pattern for whole lines replaces line by line.** -/
theorem sub_wholeLine (htext : newline ∉ text) (hlines : ∀ line ∈ lines, newline ∉ line) :
    (Pattern.ofLine newline text hne (restOfLine newline)).sub replacement (unlines newline lines) =
      unlines newline (lines.map (replaceLine text replacement)) := by
  cases lines with
  | nil => exact subAt_follow_nil
  | cons line lines =>
    rw [unlines_cons, List.map_cons, unlines_cons]
    exact subAt_wholeLine htext (.inl rfl) (hlines line (.head _)) fun line hmem => hlines line (.tail _ hmem)

/-! ## A block of lines -/

/-- Everything up to the next line that an expression matches at the start of. -/
def upTo (newline : α) (next : Regex α) : Regex α :=
  .seq (.fewest fun _ => true) (.ahead (.seq (.lineStart newline) next))

variable {next : Regex α} {header : List α → Bool}

/-- A line matches where the expression does, whatever lines follow. -/
def Heads (newline : α) (next : Regex α) (header : List α → Bool) : Prop :=
  ∀ line lines, newline ∉ line →
    (ends next ⟨some newline, line ++ follow newline lines⟩ ≠ [] ↔ header line = true)

/-- A place that the block ends at. -/
def stops (newline : α) (next : Regex α) (place : Place α) : Bool :=
  decide (ends (.seq (.lineStart newline) next) place ≠ [])

theorem flatMap_ahead (places : List (Place α)) :
    places.flatMap (ends (.ahead next)) = places.filter fun place => decide (ends next place ≠ []) := by
  induction places with
  | nil => rfl
  | cons place places ih =>
    rw [List.flatMap_cons, List.filter_cons, ih, ends]
    by_cases h : ends next place = [] <;> simp [h]

theorem head_ends_upTo {place : Place α} : (ends (upTo newline next) place).head? =
    (nearestFirst (fun _ => true) place.before place.rest).find? (stops newline next) := by
  rw [upTo, ends, ends, flatMap_ahead, List.head?_filter]
  rfl

theorem stops_of_not_starts (h : ¬ Starts newline before) : stops newline next ⟨before, rest⟩ = false := by
  have hstart : ¬ (before = none ∨ before = some newline) := h
  simp [stops, ends, hstart]

theorem stops_line (hheads : Heads newline next header) (hline : newline ∉ line) :
    stops newline next ⟨some newline, line ++ follow newline lines⟩ = header line := by
  rw [Bool.eq_iff_iff, ← hheads line lines hline]
  simp [stops, ends]

/-- The first line that is a header, and those after it, as a place. -/
def headerPlace (newline : α) (header : List α → Bool) (lines : List (List α)) : Option (Place α) :=
  match lines.dropWhile fun line => !header line with
  | [] => none
  | line :: lines => some ⟨some newline, line ++ follow newline lines⟩

theorem find_within {c : α} (h : newline ∉ c :: line) :
    (nearestFirst (fun _ => true) (some c) (line ++ rest)).find? (stops newline next) =
      (nearestFirst (fun _ => true) (lastOf (some c) line) rest).find? (stops newline next) := by
  induction line generalizing c with
  | nil => rfl
  | cons c' line ih =>
    have hc : c ≠ newline := fun he => h (he ▸ .head _)
    rw [List.cons_append, nearestFirst,
      List.find?_cons_of_neg (by simp [stops_of_not_starts (not_starts_some hc)]),
      if_pos rfl, ih fun hmem => h (.tail _ hmem)]
    rfl

/-- A block ends nowhere within a line, where it does not at the start of it. -/
theorem find_line (hline : newline ∉ line) (hstop : stops newline next ⟨before, line ++ rest⟩ = false) :
    stops newline next ⟨lastOf before line, rest⟩ = false ∧
      (nearestFirst (fun _ => true) before (line ++ rest)).find? (stops newline next) =
        (nearestFirst (fun _ => true) (lastOf before line) rest).find? (stops newline next) := by
  cases line with
  | nil => exact ⟨hstop, rfl⟩
  | cons c line =>
    refine ⟨stops_of_not_starts (not_starts_lastOf hline), ?_⟩
    rw [List.cons_append, nearestFirst, List.find?_cons_of_neg (by simpa using hstop), if_pos rfl,
      find_within hline]
    rfl

/-- Where a block does not end at a place itself, it ends at one of the lines that follow. -/
theorem find_follow (hheads : Heads newline next header) : ∀ {lines : List (List α)} {line : List α}
    {before : Option α}, newline ∉ line → (∀ line ∈ lines, newline ∉ line) →
      stops newline next ⟨before, line ++ follow newline lines⟩ = false →
        (nearestFirst (fun _ => true) before (line ++ follow newline lines)).find? (stops newline next) =
          headerPlace newline header lines
  | lines, line, before, hline, hlines, hstop => by
    obtain ⟨hstop', hskip⟩ := find_line hline hstop
    rw [hskip]
    cases lines with
    | nil =>
      rw [follow_nil, nearestFirst, List.find?_cons_of_neg (by simpa using hstop')]
      rfl
    | cons line' lines =>
      rw [follow_cons, nearestFirst, List.find?_cons_of_neg (by simpa using hstop'), if_pos rfl]
      have hline' := hlines line' (.head _)
      have hstops : stops newline next ⟨some newline, line' ++ follow newline lines⟩ = header line' :=
        stops_line hheads hline'
      cases hheader : header line' with
      | true =>
        obtain ⟨places, hplaces⟩ := nearestFirst_head (fun _ => true) (some newline)
          (line' ++ follow newline lines)
        rw [hplaces, List.find?_cons_of_pos (hstops.trans hheader), headerPlace,
          List.dropWhile_cons_of_neg (by simp [hheader])]
      | false =>
        rw [hheader] at hstops
        rw [find_follow hheads hline' (fun line hmem => hlines line (.tail _ hmem)) hstops, headerPlace,
          headerPlace, List.dropWhile_cons_of_pos (by simp [hheader])]

theorem head_ends_block (hheads : Heads newline next header) (htext : newline ∉ text)
    (hstart : Starts newline before)
    {left : List α} (hleft : newline ∉ left) (hlines : ∀ line ∈ lines, newline ∉ line) :
    (ends (Pattern.ofLine newline text hne (upTo newline next)).regex
      ⟨before, text ++ left ++ follow newline lines⟩).head? = headerPlace newline header lines := by
  have hstop : stops newline next ⟨lastOf before text, left ++ follow newline lines⟩ = false := by
    cases text with
    | nil => exact absurd rfl hne
    | cons c text => exact stops_of_not_starts (not_starts_lastOf htext)
  rw [List.append_assoc, ends_ofLine hstart, head_ends_upTo]
  exact find_follow hheads hleft hlines hstop

/-- The lines with every block replaced: from a line that starts with the text, up
to the next header, where there is one. What is cut is left out up to there. -/
def replaceBlocks (text : List α) (header : List α → Bool) (block : List (List α)) :
    Bool → List (List α) → List (List α)
  | _, [] => []
  | cut, line :: lines =>
    if cut && !header line then replaceBlocks text header block true lines
    else if text.isPrefixOf line && lines.any header then block ++ replaceBlocks text header block true lines
    else line :: replaceBlocks text header block false lines

section

variable {block : List (List α)}

theorem replaceBlocks_cut (lines : List (List α)) : replaceBlocks text header block true lines =
    replaceBlocks text header block false (lines.dropWhile fun line => !header line) := by
  induction lines with
  | nil => rfl
  | cons line lines ih =>
    cases hline : header line with
    | true => simp [replaceBlocks, hline]
    | false => simpa [replaceBlocks, hline] using ih

theorem replaceBlocks_of_not_begins (h : ¬ text <+: line) : replaceBlocks text header block false (line :: lines) =
    line :: replaceBlocks text header block false lines := by
  have hbegins : text.isPrefixOf line = false := Bool.eq_false_iff.2 (mt List.isPrefixOf_iff_prefix.1 h)
  simp [replaceBlocks, hbegins]

theorem replaceBlocks_of_no_header (h : lines.any header = false) :
    replaceBlocks text header block false (line :: lines) =
      line :: replaceBlocks text header block false lines := by
  simp [replaceBlocks, h]

theorem replaceBlocks_block (hbegins : text <+: line) (h : lines.any header = true) :
    replaceBlocks text header block false (line :: lines) =
      block ++ replaceBlocks text header block false (lines.dropWhile fun line => !header line) := by
  have hbegins : text.isPrefixOf line = true := List.isPrefixOf_iff_prefix.2 hbegins
  simp [replaceBlocks, hbegins, h, replaceBlocks_cut]

/-- Lines without a header are left. -/
theorem replaceBlocks_eq_self (h : lines.any header = false) :
    replaceBlocks text header block false lines = lines := by
  induction lines with
  | nil => rfl
  | cons line lines ih =>
    rw [List.any_cons, Bool.or_eq_false_iff] at h
    rw [replaceBlocks_of_no_header h.2, ih h.2]

/-- Lines that do not begin a block are left. -/
theorem replaceBlocks_append {front : List (List α)} (h : ∀ line ∈ front, ¬ text <+: line) :
    replaceBlocks text header block false (front ++ lines) =
      front ++ replaceBlocks text header block false lines := by
  induction front with
  | nil => rfl
  | cons line front ih =>
    rw [List.cons_append, replaceBlocks_of_not_begins (h line (.head _)),
      ih fun line hmem => h line (.tail _ hmem), List.cons_append]

theorem replaceBlocks_eq_self_of_not_begins (h : ∀ line ∈ lines, ¬ text <+: line) :
    replaceBlocks text header block false lines = lines := by
  have happend : replaceBlocks text header block false (lines ++ []) = _ := replaceBlocks_append h
  rwa [List.append_nil, replaceBlocks, List.append_nil] at happend

theorem replaceBlocks_eq_nil (hblock : block ≠ []) :
    lines = [] ↔ replaceBlocks text header block false lines = [] := by
  cases lines with
  | nil => simp [replaceBlocks]
  | cons line lines =>
    rw [replaceBlocks]
    split
    · next hcut => simp at hcut
    · split <;> simp [hblock]

theorem mem_replaceBlocks {cut : Bool} (h : line ∈ replaceBlocks text header block cut lines) :
    line ∈ block ∨ line ∈ lines := by
  induction lines generalizing cut with
  | nil => exact .inr h
  | cons line' lines ih =>
    rw [replaceBlocks] at h
    split at h
    · exact (ih h).imp_right (.tail _)
    · split at h
      · rcases List.mem_append.1 h with h | h
        · exact .inl h
        · exact (ih h).imp_right (.tail _)
      · rcases List.mem_cons.1 h with rfl | h
        · exact .inr (.head _)
        · exact (ih h).imp_right (.tail _)

/-- A change of lines that keeps headers and what begins a block, and leaves the block. -/
theorem replaceBlocks_map {f : List α → List α}
    (hbegins : ∀ line, text.isPrefixOf (f line) = text.isPrefixOf line)
    (hheader : ∀ line, header (f line) = header line) (hblock : block.map f = block) :
    ∀ (lines : List (List α)) (cut : Bool), replaceBlocks text header block cut (lines.map f) =
      (replaceBlocks text header block cut lines).map f
  | [], _ => rfl
  | line :: lines, cut => by
    have hany : (lines.map f).any header = lines.any header := by
      rw [List.any_map]
      exact congrArg (List.any lines) (funext hheader)
    have ih := replaceBlocks_map hbegins hheader hblock lines
    rw [List.map_cons, replaceBlocks, replaceBlocks, hheader, hbegins, hany, ih, ih]
    split
    · rfl
    · split
      · rw [List.map_append, hblock]
      · rfl

/-- From a header on, what is left begins with a header. -/
theorem head_replaceBlocks {first : List α} {rest : List (List α)} (hfirst : header first = true)
    (hline : header line = true) : ∃ lines', replaceBlocks text header (first :: rest) false (line :: lines) =
      lines' ∧ lines'.any header = true ∧ lines'.dropWhile (fun line => !header line) = lines' := by
  rw [replaceBlocks]
  split
  · next hcut => simp at hcut
  · split
    · exact ⟨_, rfl, by simp [hfirst], by simp [hfirst]⟩
    · exact ⟨_, rfl, by simp [hline], by simp [hline]⟩

/-- **Replacing again changes nothing**, where the block that is put in begins with
the text and holds no other header. -/
theorem replaceBlocks_replaceBlocks {first : List α} {rest : List (List α)} (htext : text <+: first)
    (hfirst : header first = true) (hrest : ∀ line ∈ rest, header line = false) :
    ∀ lines : List (List α),
      replaceBlocks text header (first :: rest) false (replaceBlocks text header (first :: rest) false lines) =
        replaceBlocks text header (first :: rest) false lines
  | [] => rfl
  | line :: lines => by
    by_cases hbegins : text <+: line
    · cases hany : lines.any header with
      | false =>
        rw [replaceBlocks_of_no_header hany, replaceBlocks_eq_self hany, replaceBlocks_of_no_header hany,
          replaceBlocks_eq_self hany]
      | true =>
        rw [replaceBlocks_block hbegins hany]
        have hshort := (List.dropWhile_suffix (l := lines) fun line => !header line).length_le
        have hleft := List.head?_dropWhile_not (fun line => !header line) lines
        cases hdrop : lines.dropWhile fun line => !header line with
        | nil =>
          have hnone := List.dropWhile_eq_nil_iff.1 hdrop
          obtain ⟨headed, hmem, hheader⟩ := List.any_eq_true.1 hany
          exact absurd (hnone headed hmem) (by simp [hheader])
        | cons headed left =>
          have hlt : left.length < lines.length := by
            rw [hdrop, List.length_cons] at hshort
            omega
          have hheader : header headed = true := by simpa [hdrop] using hleft
          obtain ⟨lines', hlines', hany', hdrop'⟩ :
              ∃ lines', replaceBlocks text header (first :: rest) false (headed :: left) = lines' ∧
                lines'.any header = true ∧ lines'.dropWhile (fun line => !header line) = lines' :=
            head_replaceBlocks hfirst hheader
          have hagain := replaceBlocks_replaceBlocks htext hfirst hrest (headed :: left)
          rw [hlines'] at hagain ⊢
          rw [List.cons_append, replaceBlocks_block htext (by simp [hany']),
            List.dropWhile_append_of_pos (by simpa using hrest), hdrop', hagain, List.cons_append]
    · rw [replaceBlocks_of_not_begins hbegins, replaceBlocks_of_not_begins hbegins,
        replaceBlocks_replaceBlocks htext hfirst hrest lines]
termination_by lines => lines.length

end

/-- A line with no match at its start, and what becomes of the lines after it. -/
theorem subAt_unlines_cons (htext : newline ∉ text) {lines' : List (List α)} (hline : newline ∉ line)
    (hmiss : ends (Pattern.ofLine newline text hne r).regex ⟨before, unlines newline (line :: lines)⟩ = [])
    (hrest : (Pattern.ofLine newline text hne r).subAt replacement ⟨some newline, unlines newline lines⟩ =
      unlines newline lines') (hnil : lines = [] ↔ lines' = []) :
    (Pattern.ofLine newline text hne r).subAt replacement ⟨before, unlines newline (line :: lines)⟩ =
      unlines newline (line :: lines') := by
  rw [unlines_cons] at hmiss ⊢
  rw [subAt_miss hline hmiss]
  cases lines with
  | nil => rw [hnil.1 rfl, subAt_follow_nil, unlines_cons, follow_nil]
  | cons next lines =>
    rw [unlines_cons] at hrest
    rw [subAt_follow_cons htext, hrest, unlines_cons_of_ne_nil (mt hnil.2 (List.cons_ne_nil next lines))]

/-- A block is replaced where the first line of it is. -/
theorem subAt_block (hheads : Heads newline next header) (htext : newline ∉ text)
    (hstart : Starts newline before) {block : List (List α)} (hline : newline ∉ line) (hbegins : text <+: line)
    (hlines : ∀ line ∈ lines, newline ∉ line) {headed : List α} {rest : List (List α)}
    (hdrop : lines.dropWhile (fun line => !header line) = headed :: rest) :
    (Pattern.ofLine newline text hne (upTo newline next)).subAt (unlines newline block ++ [newline])
        ⟨before, unlines newline (line :: lines)⟩ =
      unlines newline block ++ [newline] ++
        (Pattern.ofLine newline text hne (upTo newline next)).subAt (unlines newline block ++ [newline])
          ⟨some newline, unlines newline (headed :: rest)⟩ := by
  obtain ⟨left, rfl⟩ := hbegins
  have hhead : (ends (Pattern.ofLine newline text hne (upTo newline next)).regex
      ⟨before, text ++ left ++ follow newline lines⟩).head? =
      some ⟨some newline, headed ++ follow newline rest⟩ := by
    rw [head_ends_block hheads htext hstart (fun hmem => hline (List.mem_append_right _ hmem)) hlines,
      headerPlace, hdrop]
  rw [unlines_cons, Pattern.subAt_match hhead, ← unlines_cons]

/-- A block that no header follows is not matched. -/
theorem ends_block_eq_nil (hheads : Heads newline next header) (htext : newline ∉ text)
    (hstart : Starts newline before) (hline : newline ∉ line) (hlines : ∀ line ∈ lines, newline ∉ line)
    (hany : lines.any header = false) :
    ends (Pattern.ofLine newline text hne (upTo newline next)).regex ⟨before, unlines newline (line :: lines)⟩ =
      [] := by
  rw [unlines_cons]
  by_cases hbegins : text <+: line
  · obtain ⟨left, rfl⟩ := hbegins
    have hdrop : lines.dropWhile (fun line => !header line) = [] :=
      List.dropWhile_eq_nil_iff.2 fun line hmem => by
        have := List.any_eq_false.1 hany line hmem
        simpa using this
    rw [← List.head?_eq_none_iff, head_ends_block hheads htext hstart
      (fun hmem => hline (List.mem_append_right _ hmem)) hlines, headerPlace, hdrop]
  · exact ends_ofLine_of_not_begins (mt (prefix_follow_iff htext).1 hbegins)

theorem subAt_replaceBlocks (hheads : Heads newline next header) (htext : newline ∉ text)
    {block : List (List α)} (hblock : block ≠ []) : ∀ {lines : List (List α)} {before : Option α},
    Starts newline before → (∀ line ∈ lines, newline ∉ line) →
    (Pattern.ofLine newline text hne (upTo newline next)).subAt (unlines newline block ++ [newline])
        ⟨before, unlines newline lines⟩ =
      unlines newline (replaceBlocks text header block false lines)
  | [], _, _, _ => subAt_follow_nil
  | line :: lines, before, hstart, hlines => by
    have hline := hlines line (.head _)
    have hrest : ∀ line ∈ lines, newline ∉ line := fun line hmem => hlines line (.tail _ hmem)
    by_cases hbegins : text <+: line
    · cases hdrop : lines.dropWhile fun line => !header line with
      | nil =>
        have hany : lines.any header = false := List.any_eq_false.2 fun line hmem => by
          simpa using List.dropWhile_eq_nil_iff.1 hdrop line hmem
        rw [replaceBlocks_of_no_header hany]
        exact subAt_unlines_cons htext hline (ends_block_eq_nil hheads htext hstart hline hrest hany)
          (subAt_replaceBlocks hheads htext hblock (.inr rfl) hrest) (replaceBlocks_eq_nil hblock)
      | cons headed left =>
        have hsuffix : headed :: left <:+ lines := hdrop ▸ List.dropWhile_suffix _
        have hshort := hsuffix.length_le
        rw [List.length_cons] at hshort
        have hany : lines.any header = true := by
          have hhead := List.head?_dropWhile_not (fun line => !header line) lines
          rw [hdrop, List.head?_cons] at hhead
          exact List.any_eq_true.2 ⟨headed, hsuffix.subset (.head _), by simpa using hhead⟩
        rw [subAt_block hheads htext hstart hline hbegins hrest hdrop,
          subAt_replaceBlocks hheads htext hblock (.inr rfl) fun line hmem => hrest line (hsuffix.subset hmem),
          replaceBlocks_block hbegins hany, hdrop,
          unlines_append (mt (replaceBlocks_eq_nil hblock).2 (List.cons_ne_nil headed left)) hblock,
          List.append_assoc, List.singleton_append]
    · rw [replaceBlocks_of_not_begins hbegins]
      refine subAt_unlines_cons htext hline ?_ (subAt_replaceBlocks hheads htext hblock (.inr rfl) hrest)
        (replaceBlocks_eq_nil hblock)
      rw [unlines_cons]
      exact ends_ofLine_of_not_begins (mt (prefix_follow_iff htext).1 hbegins)
termination_by lines => lines.length

/-- **A pattern for a block replaces its lines**, every time they are there. -/
theorem sub_block (hheads : Heads newline next header) (htext : newline ∉ text) {block : List (List α)}
    (hblock : block ≠ []) (hlines : ∀ line ∈ lines, newline ∉ line) :
    (Pattern.ofLine newline text hne (upTo newline next)).sub (unlines newline block ++ [newline])
        (unlines newline lines) =
      unlines newline (replaceBlocks text header block false lines) :=
  subAt_replaceBlocks hheads htext hblock (.inl rfl) hlines

end CartyxInfra.Regex
