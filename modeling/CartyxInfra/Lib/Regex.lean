/-
Regular expressions as a backtracking engine takes them: at a place in a text
an expression has ends, in the order in which the engine tries them, and the
first is the match.

There are the anchors at both ends of a line, greedy and lazy repetition of a
class of characters, and a look-ahead, which is what tells such an engine from
a language of words. `fullMatch` is a match of a whole text, and `Pattern.sub`
the substitution of every match, from left to right; a pattern matches no
empty text, where engines differ on what comes next.
-/
import Mathlib.Data.List.Basic

namespace CartyxInfra

/-- Where an engine stands in a text: the character before, if any, and what follows. -/
@[ext] structure Place (α : Type) where
  before : Option α
  rest : List α
  deriving DecidableEq

/-- Expressions, as far as they come without groups and back-references. -/
inductive Regex (α : Type)
  | empty
  | one (allowed : α → Bool)
  | many (allowed : α → Bool)
  /-- Lazy: the fewest first. -/
  | fewest (allowed : α → Bool)
  | seq (first second : Regex α)
  | either (first second : Regex α)
  /-- At the start of a line. -/
  | lineStart (newline : α)
  /-- At the end of a line. -/
  | lineEnd (newline : α)
  | ahead (next : Regex α)

namespace Regex

variable {α : Type} {allowed : α → Bool} {place stop : Place α} {before : Option α} {text : List α}

/-- The places up to which all characters are allowed, the farthest first. -/
def farthestFirst (allowed : α → Bool) : Option α → List α → List (Place α)
  | before, [] => [⟨before, []⟩]
  | before, c :: rest =>
    if allowed c then farthestFirst allowed (some c) rest ++ [⟨before, c :: rest⟩] else [⟨before, c :: rest⟩]

/-- The same places, the nearest first. -/
def nearestFirst (allowed : α → Bool) : Option α → List α → List (Place α)
  | before, [] => [⟨before, []⟩]
  | before, c :: rest => ⟨before, c :: rest⟩ :: if allowed c then nearestFirst allowed (some c) rest else []

/-- The character before what follows a text. -/
def lastOf (before : Option α) : List α → Option α
  | [] => before
  | c :: rest => lastOf (some c) rest

/-- One place comes after another, with a text in between. -/
def Between (text : List α) (place stop : Place α) : Prop :=
  place.rest = text ++ stop.rest ∧ stop.before = lastOf place.before text

theorem between_nil : Between [] place stop ↔ stop = place := by
  simp only [Between, List.nil_append, lastOf, Place.ext_iff]
  exact ⟨fun h => ⟨h.2, h.1.symm⟩, fun h => ⟨h.2.symm, h.1⟩⟩

theorem between_cons {c c' : α} {rest : List α} : Between (c :: text) ⟨before, c' :: rest⟩ stop ↔
    c' = c ∧ Between text ⟨some c', rest⟩ stop := by
  simp only [Between, List.cons_append, List.cons.injEq, lastOf, and_assoc]
  constructor
  · rintro ⟨rfl, h⟩
    exact ⟨rfl, h⟩
  · rintro ⟨rfl, h⟩
    exact ⟨rfl, h⟩

theorem lastOf_append (text text' : List α) {before : Option α} :
    lastOf before (text ++ text') = lastOf (lastOf before text) text' := by
  induction text generalizing before with
  | nil => rfl
  | cons _ text ih => exact ih

theorem Between.append {text' : List α} {middle : Place α} (h : Between text place middle)
    (h' : Between text' middle stop) : Between (text ++ text') place stop := by
  refine ⟨?_, ?_⟩
  · rw [h.1, h'.1, List.append_assoc]
  · rw [h'.2, h.2, lastOf_append]

theorem between_append {text' : List α} (h : Between (text ++ text') place stop) :
    ∃ middle, Between text place middle ∧ Between text' middle stop := by
  refine ⟨⟨lastOf place.before text, text' ++ stop.rest⟩, ⟨?_, rfl⟩, rfl, ?_⟩
  · rw [h.1, List.append_assoc]
  · rw [h.2, lastOf_append]

theorem between_nil_cons {c : α} : ¬ Between (c :: text) ⟨before, []⟩ stop := by
  simp [Between]

theorem mem_farthestFirst : stop ∈ farthestFirst allowed before text ↔
    ∃ taken, (∀ c ∈ taken, allowed c = true) ∧ Between taken ⟨before, text⟩ stop := by
  induction text generalizing before with
  | nil =>
    simp only [farthestFirst, List.mem_singleton]
    constructor
    · intro h
      exact ⟨[], by simp, between_nil.2 h⟩
    · rintro ⟨taken, -, h⟩
      cases taken with
      | nil => exact between_nil.1 h
      | cons _ _ => exact absurd h between_nil_cons
  | cons c rest ih =>
    simp only [farthestFirst]
    constructor
    · intro h
      split at h
      · rename_i hc
        rcases List.mem_append.1 h with h | h
        · obtain ⟨taken, htaken, hbetween⟩ := ih.1 h
          exact ⟨c :: taken, by simpa [hc] using htaken, between_cons.2 ⟨rfl, hbetween⟩⟩
        · exact ⟨[], by simp, between_nil.2 (List.mem_singleton.1 h)⟩
      · exact ⟨[], by simp, between_nil.2 (List.mem_singleton.1 h)⟩
    · rintro ⟨taken, htaken, hbetween⟩
      cases taken with
      | nil =>
        have hstop := between_nil.1 hbetween
        split <;> simp [hstop]
      | cons c' taken =>
        obtain ⟨rfl, hrest⟩ := between_cons.1 hbetween
        rw [if_pos (htaken c (.head _))]
        exact List.mem_append_left _ (ih.2 ⟨taken, fun c hc => htaken c (.tail _ hc), hrest⟩)

/-- The first of the farthest is where the characters that are allowed end. -/
theorem head_farthestFirst : ∀ {rest : List α} {before : Option α}, (∀ c ∈ text, allowed c = true) →
    (∀ c ∈ rest.head?, allowed c = false) →
      (farthestFirst allowed before (text ++ rest)).head? = some ⟨lastOf before text, rest⟩ := by
  induction text with
  | nil =>
    intro rest before _ hrest
    cases rest with
    | nil => rfl
    | cons c rest =>
      have hc : allowed c = false := hrest c rfl
      simp [farthestFirst, hc, lastOf]
  | cons c text ih =>
    intro rest before htext hrest
    have hc : allowed c = true := htext c (.head _)
    have hrec : (farthestFirst allowed (some c) (text ++ rest)).head? = some ⟨lastOf (some c) text, rest⟩ :=
      ih (fun c hc => htext c (.tail _ hc)) hrest
    simp only [List.cons_append, farthestFirst, hc, if_true, List.head?_append, hrec, Option.some_or, lastOf]

theorem nearestFirst_head (allowed : α → Bool) (before : Option α) : ∀ text : List α,
    ∃ places, nearestFirst allowed before text = ⟨before, text⟩ :: places
  | [] | _ :: _ => ⟨_, rfl⟩

theorem nearestFirst_eq :
    nearestFirst allowed before text = (farthestFirst allowed before text).reverse := by
  induction text generalizing before with
  | nil => rfl
  | cons c rest ih =>
    rw [nearestFirst, farthestFirst]
    split
    · rw [List.reverse_append, ih]
      rfl
    · rfl

theorem length_le_of_mem_farthestFirst {text : List α} {before : Option α} {stop : Place α}
    (h : stop ∈ farthestFirst allowed before text) : stop.rest.length ≤ text.length := by
  obtain ⟨taken, -, hrest, -⟩ := mem_farthestFirst.1 h
  rw [show text = taken ++ stop.rest from hrest, List.length_append]
  exact Nat.le_add_left _ _

/-! ## Matching -/

variable [DecidableEq α]

/-- The ends of the matches at a place, in the order in which they are tried. -/
def ends : Regex α → Place α → List (Place α)
  | empty, place => [place]
  | one allowed, ⟨_, c :: rest⟩ => if allowed c then [⟨some c, rest⟩] else []
  | one _, ⟨_, []⟩ => []
  | many allowed, place => farthestFirst allowed place.before place.rest
  | fewest allowed, place => nearestFirst allowed place.before place.rest
  | seq first second, place => (ends first place).flatMap (ends second)
  | either first second, place => ends first place ++ ends second place
  | lineStart newline, place => if place.before = none ∨ place.before = some newline then [place] else []
  | lineEnd newline, place => if place.rest = [] ∨ place.rest.head? = some newline then [place] else []
  | ahead next, place => if ends next place = [] then [] else [place]

/-- A text, character by character. -/
def lit : List α → Regex α
  | [] => empty
  | c :: rest => seq (one fun c' => c' == c) (lit rest)

/-- A match of a whole text. -/
def fullMatch (r : Regex α) (text : List α) : Bool := (ends r ⟨none, text⟩).any fun stop => stop.rest.isEmpty

theorem mem_ends_lit : ∀ {text : List α} {place stop : Place α},
    stop ∈ ends (lit text) place ↔ Between text place stop
  | [], _, _ => by rw [lit, ends, List.mem_singleton, between_nil]
  | c :: text, ⟨before, []⟩, stop => by simp [lit, ends, between_nil_cons]
  | c :: text, ⟨before, c' :: rest⟩, stop => by
    rw [between_cons, lit, ends]
    by_cases hc : c' = c
    · simp only [ends, hc, beq_self_eq_true, if_true, List.flatMap_cons, List.flatMap_nil, List.append_nil,
        mem_ends_lit, true_and]
    · simp only [ends, beq_iff_eq, hc, if_false, List.flatMap_nil, List.not_mem_nil, false_and]

theorem ends_lit_append (text : List α) {rest : List α} :
    ends (lit text) ⟨before, text ++ rest⟩ = [⟨lastOf before text, rest⟩] := by
  induction text generalizing before with
  | nil => rfl
  | cons c text ih =>
    simp only [lit, ends, List.cons_append, beq_self_eq_true, if_true, List.flatMap_cons, List.flatMap_nil,
      List.append_nil, ih, lastOf]

theorem ends_lit_eq_nil {rest : List α} (h : ¬ text <+: rest) : ends (lit text) ⟨before, rest⟩ = [] := by
  refine List.eq_nil_iff_forall_not_mem.2 fun stop hstop => h ?_
  exact ⟨stop.rest, (mem_ends_lit.1 hstop).1.symm⟩

/-- No match ends before it starts. -/
theorem length_le_of_mem_ends {r : Regex α} : ∀ {place stop : Place α}, stop ∈ ends r place →
    stop.rest.length ≤ place.rest.length := by
  induction r with
  | empty =>
    intro place stop h
    rw [ends, List.mem_singleton] at h
    exact h ▸ Nat.le_refl _
  | one allowed =>
    intro ⟨before, rest⟩ stop h
    cases rest with
    | nil => cases h
    | cons c rest =>
      rw [ends] at h
      split at h
      · rw [List.mem_singleton.1 h]
        exact Nat.le_succ _
      · cases h
  | many allowed => exact fun h => length_le_of_mem_farthestFirst h
  | fewest allowed =>
    intro place stop h
    rw [ends, nearestFirst_eq, List.mem_reverse] at h
    exact length_le_of_mem_farthestFirst h
  | seq first second ihf ihs =>
    intro place stop h
    obtain ⟨middle, hm, h⟩ := List.mem_flatMap.1 h
    exact Nat.le_trans (ihs h) (ihf hm)
  | either first second ihf ihs =>
    intro place stop h
    rcases List.mem_append.1 h with h | h
    · exact ihf h
    · exact ihs h
  | lineStart newline | lineEnd newline =>
    intro place stop h
    rw [ends] at h
    split at h
    · exact List.mem_singleton.1 h ▸ Nat.le_refl _
    · cases h
  | ahead next _ =>
    intro place stop h
    rw [ends] at h
    split at h
    · cases h
    · exact List.mem_singleton.1 h ▸ Nat.le_refl _

/-! ## Words -/

/-- An expression that reads nothing but what it consumes: it consumes certain words, wherever it stands. -/
def Reads (r : Regex α) (words : List α → Prop) : Prop :=
  ∀ place stop, stop ∈ ends r place ↔ ∃ taken, words taken ∧ Between taken place stop

theorem reads_lit (text : List α) : Reads (lit text) (· = text) := by
  intro place stop
  simp only [mem_ends_lit, exists_eq_left]

theorem reads_many (allowed : α → Bool) : Reads (many allowed) fun taken => ∀ c ∈ taken, allowed c = true :=
  fun _ _ => mem_farthestFirst

theorem reads_one (allowed : α → Bool) :
    Reads (one allowed) fun taken => ∃ c, allowed c = true ∧ taken = [c] := by
  intro ⟨before, rest⟩ stop
  cases rest with
  | nil =>
    refine iff_of_false (by simp [ends]) ?_
    rintro ⟨_, ⟨c, -, rfl⟩, hbetween⟩
    exact between_nil_cons hbetween
  | cons c rest =>
    constructor
    · intro h
      rw [ends] at h
      split at h
      · rename_i hc
        rw [List.mem_singleton.1 h]
        exact ⟨[c], ⟨c, hc, rfl⟩, rfl, rfl⟩
      · cases h
    · rintro ⟨_, ⟨c', hc, rfl⟩, hbetween⟩
      obtain ⟨rfl, hnil⟩ := between_cons.1 hbetween
      rw [ends, if_pos hc, between_nil.1 hnil]
      exact .head _

theorem Reads.ends_ne_nil {r : Regex α} {words : List α → Prop} (h : Reads r words) {place : Place α} :
    ends r place ≠ [] ↔ ∃ taken, words taken ∧ taken <+: place.rest := by
  constructor
  · intro hne
    obtain ⟨stop, hstop⟩ := List.exists_mem_of_ne_nil _ hne
    obtain ⟨taken, htaken, hrest, -⟩ := (h place stop).1 hstop
    exact ⟨taken, htaken, stop.rest, hrest.symm⟩
  · rintro ⟨taken, htaken, rest, hrest⟩
    have hstop := (h place ⟨lastOf place.before taken, rest⟩).2 ⟨taken, htaken, hrest.symm, rfl⟩
    exact List.ne_nil_of_mem hstop

theorem Reads.seq {first second : Regex α} {words words' : List α → Prop} (hf : Reads first words)
    (hs : Reads second words') :
    Reads (.seq first second) fun taken => ∃ left right, words left ∧ words' right ∧
      taken = left ++ right := by
  intro place stop
  simp only [ends, List.mem_flatMap, hf place, hs _ stop]
  constructor
  · rintro ⟨middle, ⟨left, hleft, hl⟩, right, hright, hr⟩
    exact ⟨left ++ right, ⟨left, right, hleft, hright, rfl⟩, hl.append hr⟩
  · rintro ⟨_, ⟨left, right, hleft, hright, rfl⟩, hbetween⟩
    obtain ⟨middle, hl, hr⟩ := between_append hbetween
    exact ⟨middle, ⟨left, hleft, hl⟩, right, hright, hr⟩

theorem Reads.either {first second : Regex α} {words words' : List α → Prop} (hf : Reads first words)
    (hs : Reads second words') : Reads (.either first second) fun taken => words taken ∨ words' taken := by
  intro place stop
  simp only [ends, List.mem_append, hf place stop, hs place stop, or_and_right, exists_or]

theorem Reads.fullMatch_iff {r : Regex α} {words : List α → Prop} (h : Reads r words) :
    fullMatch r text = true ↔ words text := by
  simp only [fullMatch, List.any_eq_true, List.isEmpty_iff, h ⟨none, text⟩]
  constructor
  · rintro ⟨⟨_, rest⟩, ⟨taken, htaken, hrest, -⟩, rfl⟩
    rw [List.append_nil] at hrest
    subst hrest
    exact htaken
  · intro htext
    exact ⟨⟨lastOf none text, []⟩, ⟨text, htext, (List.append_nil text).symm, rfl⟩, rfl⟩

/-! ## Substitution -/

/-- An expression that consumes something wherever it matches. -/
structure Pattern (α : Type) [DecidableEq α] where
  regex : Regex α
  consumes : ∀ place, ∀ stop ∈ ends regex place, stop.rest.length < place.rest.length

namespace Pattern

variable (pattern : Pattern α) (replacement : List α)

/-- The text from a place on, with what matches replaced. -/
def subFrom : Nat → Place α → List α
  | 0, place => place.rest
  | fuel + 1, place =>
    match (ends pattern.regex place).head? with
    | some stop => replacement ++ subFrom fuel stop
    | none =>
      match place.rest with
      | [] => []
      | c :: rest => c :: subFrom fuel ⟨some c, rest⟩

/-- What follows a place, with every match in it replaced; there are no more matches than characters. -/
def subAt (place : Place α) : List α := subFrom pattern replacement (place.rest.length + 1) place

/-- A text with every match replaced, from left to right. -/
def sub (text : List α) : List α := subAt pattern replacement ⟨none, text⟩

variable {pattern replacement}

theorem subFrom_eq : ∀ {fuel fuel' : Nat} {place : Place α}, place.rest.length < fuel →
    place.rest.length < fuel' →
    subFrom pattern replacement fuel place = subFrom pattern replacement fuel' place
  | fuel + 1, fuel' + 1, place, h, h' => by
    simp only [subFrom]
    cases hmatch : (ends pattern.regex place).head? with
    | some stop =>
      have hlt := pattern.consumes place stop (List.mem_of_mem_head? hmatch)
      dsimp only
      rw [subFrom_eq (show stop.rest.length < fuel by omega) (show stop.rest.length < fuel' by omega)]
    | none =>
      dsimp only
      cases hrest : place.rest with
      | nil => rfl
      | cons c rest =>
        rw [hrest, List.length_cons] at h h'
        dsimp only
        rw [subFrom_eq (show rest.length < fuel by omega) (show rest.length < fuel' by omega)]

theorem subAt_match (h : (ends pattern.regex place).head? = some stop) :
    subAt pattern replacement place = replacement ++ subAt pattern replacement stop := by
  have hlt := pattern.consumes place stop (List.mem_of_mem_head? h)
  rw [subAt, subFrom, h]
  dsimp only
  rw [subFrom_eq hlt (Nat.lt_succ_self _), subAt]

theorem subAt_step {c : α} {rest : List α} (h : ends pattern.regex ⟨before, c :: rest⟩ = []) :
    subAt pattern replacement ⟨before, c :: rest⟩ = c :: subAt pattern replacement ⟨some c, rest⟩ := by
  rw [subAt, subFrom, h]
  rfl

theorem subAt_end (h : ends pattern.regex ⟨before, []⟩ = []) :
    subAt pattern replacement ⟨before, []⟩ = [] := by
  rw [subAt, subFrom, h]
  rfl

end Pattern

end Regex

end CartyxInfra
