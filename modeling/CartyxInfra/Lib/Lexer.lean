/-
Lexers that read a text one character at a time, and the lexical grammar of
SQL's relatives: words, quoted strings and names, comments and symbols.

A lexer's state says what it is in the middle of. `run_append` reads a text
piece by piece, so a text with something spliced into it is read by what its
pieces are in the state they are met in: `run_word` and `run_quoted` for what is
spliced where a word or a string is expected.
-/
import Mathlib.Data.List.Basic

namespace CartyxInfra

/-- A finite machine that reads a text by characters. -/
structure Lexer (State Letter Token : Type) where
  /-- The state after a character, and the tokens that it completes. -/
  step : State → Letter → State × List Token
  /-- The tokens that the end of the text completes, unless it is in the middle of one. -/
  finish : State → Option (List Token)

namespace Lexer

variable {State Letter Token : Type} (L : Lexer State Letter Token)

/-- The state behind a text, and the tokens completed in it. -/
def run : State → List Letter → State × List Token
  | s, [] => (s, [])
  | s, c :: rest => ((run (L.step s c).1 rest).1, (L.step s c).2 ++ (run (L.step s c).1 rest).2)

/-- The tokens of a text, where it ends between two. -/
def lex (s : State) (text : List Letter) : Option (List Token) :=
  (L.finish (L.run s text).1).map ((L.run s text).2 ++ ·)

theorem run_append (s : State) (first second : List Letter) : L.run s (first ++ second) =
    ((L.run (L.run s first).1 second).1, (L.run s first).2 ++ (L.run (L.run s first).1 second).2) := by
  induction first generalizing s with
  | nil => rfl
  | cons c first ih => simp only [List.cons_append, run, ih, List.append_assoc]

end Lexer

namespace Sql

/-- The tokens of SQL's dialects. -/
inductive Token
  /-- A word or a number, in lower case. -/
  | word (text : List Char)
  | string (text : List Char)
  /-- A name in double quotes. -/
  | name (text : List Char)
  | symbol (c : Char)
  deriving DecidableEq

/-- Where the machine is. -/
inductive State
  | between
  | word (text : List Char)
  /-- In a string. -/
  | quoted (text : List Char)
  /-- Behind a quote in a string: the string ends there, or goes on with that quote. -/
  | closing (text : List Char)
  | named (text : List Char)
  | namedClosing (text : List Char)
  /-- Behind a symbol that two of begin a comment. -/
  | twice (c : Char)
  | lineComment
  | blockComment
  /-- Behind an asterisk in a comment. -/
  | blockClosing
  deriving DecidableEq

/-- A character of a word or a number. -/
def isWordChar (c : Char) : Bool := c.isAlphanum || c == '_'

/-- At a character that nothing before it belongs to. -/
def start (c : Char) : State × List Token :=
  if isWordChar c then (.word [c.toLower], [])
  else if c == '\'' then (.quoted [], [])
  else if c == '"' then (.named [], [])
  else if c == '-' || c == '/' then (.twice c, [])
  else if c.isWhitespace then (.between, [])
  else (.between, [.symbol c])

/-- Behind a token that the character does not belong to. -/
def after (token : Token) (c : Char) : State × List Token := ((start c).1, token :: (start c).2)

/-- A character, by where the machine is. -/
def step : State → Char → State × List Token
  | .between, c => start c
  | .word text, c => if isWordChar c then (.word (text ++ [c.toLower]), []) else after (.word text) c
  | .quoted text, c => if c == '\'' then (.closing text, []) else (.quoted (text ++ [c]), [])
  | .closing text, c => if c == '\'' then (.quoted (text ++ [c]), []) else after (.string text) c
  | .named text, c => if c == '"' then (.namedClosing text, []) else (.named (text ++ [c]), [])
  | .namedClosing text, c => if c == '"' then (.named (text ++ [c]), []) else after (.name text) c
  | .twice first, c =>
    if c == first then (.lineComment, [])
    else if first == '/' && c == '*' then (.blockComment, [])
    else after (.symbol first) c
  | .lineComment, c => if c == '\n' then (.between, []) else (.lineComment, [])
  | .blockComment, c => if c == '*' then (.blockClosing, []) else (.blockComment, [])
  | .blockClosing, c =>
    if c == '/' then (.between, []) else if c == '*' then (.blockClosing, []) else (.blockComment, [])

/-- The end of the text, by where the machine is. -/
def finish : State → Option (List Token)
  | .between | .lineComment => some []
  | .word text => some [.word text]
  | .closing text => some [.string text]
  | .namedClosing text => some [.name text]
  | .twice c => some [.symbol c]
  | .quoted _ | .named _ | .blockComment | .blockClosing => none

/-- The lexer of SQL's dialects. -/
def lexer : Lexer State Char Token := ⟨step, finish⟩

/-- A word in lower case: what a name that needs no quotes is made of. -/
def Plain (text : List Char) : Prop := ∀ c ∈ text, isWordChar c = true ∧ c.toLower = c

theorem run_word {text : List Char} (h : Plain text) (before : List Char) :
    lexer.run (.word before) text = (.word (before ++ text), []) := by
  induction text generalizing before with
  | nil => simp [Lexer.run]
  | cons c rest ih =>
    obtain ⟨hword, hlower⟩ := h c (by simp)
    have hstep : lexer.step (.word before) c = (.word (before ++ [c]), []) := by
      simp [lexer, step, hword, hlower]
    rw [Lexer.run, hstep, ih fun c hc => h c (by simp [hc])]
    simp

/-- A word where nothing has begun. -/
theorem run_plain {text : List Char} (h : Plain text) (hne : text ≠ []) :
    lexer.run .between text = (.word text, []) := by
  cases text with
  | nil => exact absurd rfl hne
  | cons c rest =>
    obtain ⟨hword, hlower⟩ := h c (by simp)
    have hstep : lexer.step .between c = (.word [c], []) := by simp [lexer, step, start, hword, hlower]
    rw [Lexer.run, hstep, run_word fun c hc => h c (by simp [hc])]
    simp

/-- A text without quotes in a string. -/
theorem run_quoted {text : List Char} (h : '\'' ∉ text) (before : List Char) :
    lexer.run (.quoted before) text = (.quoted (before ++ text), []) := by
  induction text generalizing before with
  | nil => simp [Lexer.run]
  | cons c rest ih =>
    simp only [List.mem_cons, not_or] at h
    have hc : c ≠ '\'' := Ne.symm h.1
    have hstep : lexer.step (.quoted before) c = (.quoted (before ++ [c]), []) := by simp [lexer, step, hc]
    rw [Lexer.run, hstep, ih h.2]
    simp

/-- A word ends where a text begins with something else. -/
theorem run_after_word {c : Char} (hc : isWordChar c = false) (word rest : List Char) :
    lexer.run (.word word) (c :: rest) =
      ((lexer.run .between (c :: rest)).1, .word word :: (lexer.run .between (c :: rest)).2) := by
  have hword : lexer.step (.word word) c = after (.word word) c := by simp [lexer, step, hc]
  have hbetween : lexer.step .between c = start c := rfl
  simp only [Lexer.run, hword, hbetween, after, List.cons_append]

/-- A string ends where a text goes on with its quote and something else. -/
theorem run_after_quoted {c : Char} (hc : c ≠ '\'') (text rest : List Char) :
    lexer.run (.quoted text) ('\'' :: c :: rest) =
      ((lexer.run .between (c :: rest)).1, .string text :: (lexer.run .between (c :: rest)).2) := by
  have hquote : lexer.step (.quoted text) '\'' = (.closing text, []) := by simp [lexer, step]
  have hclosing : lexer.step (.closing text) c = after (.string text) c := by simp [lexer, step, hc]
  have hbetween : lexer.step .between c = start c := rfl
  simp only [Lexer.run, hquote, hclosing, hbetween, after, List.nil_append, List.cons_append]

/-! ## Texts with something spliced in -/

variable {s s' : State} {tokens : List Token}

theorem read_fixed {fixed : List Char} (h : lexer.run s fixed = (s', tokens)) (rest : List Char) :
    lexer.run s (fixed ++ rest) = ((lexer.run s' rest).1, tokens ++ (lexer.run s' rest).2) := by
  rw [Lexer.run_append, h]

/-- A word, and behind it something that does not belong to it. -/
theorem read_word {text fixed : List Char} (hplain : Plain text) (hne : text ≠ [])
    (hc : fixed.head?.map isWordChar = some false) (h : lexer.run .between fixed = (s, tokens))
    (rest : List Char) :
    lexer.run .between (text ++ (fixed ++ rest)) =
      ((lexer.run s rest).1, .word text :: (tokens ++ (lexer.run s rest).2)) := by
  cases fixed with
  | nil => cases hc
  | cons c fixed =>
    have hc' : isWordChar c = false := by simpa using hc
    rw [Lexer.run_append, run_plain hplain hne, List.cons_append, run_after_word hc', ← List.cons_append,
      read_fixed h]
    rfl

/-- A string, and behind it its quote and something else. -/
theorem read_string {text fixed : List Char} (hquote : '\'' ∉ text) (hfirst : fixed.head? = some '\'')
    (hc : fixed.tail.head?.map (· == '\'') = some false) (h : lexer.run .between fixed.tail = (s, tokens))
    (rest : List Char) :
    lexer.run (.quoted []) (text ++ (fixed ++ rest)) =
      ((lexer.run s rest).1, .string text :: (tokens ++ (lexer.run s rest).2)) := by
  match fixed with
  | first :: c :: fixed =>
    obtain rfl : first = '\'' := by simpa using hfirst
    have hc' : c ≠ '\'' := by simpa using hc
    rw [Lexer.run_append, run_quoted hquote, List.nil_append, List.cons_append, List.cons_append,
      run_after_quoted hc', ← List.cons_append]
    have hrest := read_fixed h rest
    rw [List.tail_cons] at hrest
    rw [hrest]
    rfl

end Sql

end CartyxInfra
