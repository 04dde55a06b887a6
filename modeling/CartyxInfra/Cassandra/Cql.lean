/-
The text that `cassandra-admin.py` writes for `cqlsh`, and what the lexical
grammar of CQL makes of it: identifiers are spliced into it bare and secrets
between quotes.
-/
import CartyxInfra.Cassandra.CassandraAdmin
import CartyxInfra.Lib.Lexer

namespace CartyxInfra.Cassandra

open Sql

/-- A role's name in CQL. -/
def RoleName.text : RoleName → Text
  | .cassandra => Cassandra.text "cassandra"
  | .cartyxAdmin => Cassandra.text "cartyx_admin"
  | .cartyxGraph => Cassandra.text "cartyx_graph"
  | .cartyxState => Cassandra.text "cartyx_state"

/-- A permission in CQL. -/
def Permission.text : Permission → Text
  | .all => Cassandra.text "ALL PERMISSIONS"
  | .select => Cassandra.text "SELECT"
  | .modify => Cassandra.text "MODIFY"

/-- `true` and `false` in CQL. -/
def bool (b : Bool) : Text := if b then text "true" else text "false"

/-- A statement as the script's strings have it. -/
def Statement.render : Statement → Text
  | .createKeyspace keyspace dc =>
    text "CREATE KEYSPACE IF NOT EXISTS " ++ (keyspace ++
      (text " WITH replication = \x7b'class': 'NetworkTopologyStrategy', '" ++ (dc ++ text "': 1\x7d;")))
  | .createRole role password superuser =>
    text "CREATE ROLE IF NOT EXISTS " ++ (role.text ++ (text " WITH PASSWORD = '" ++ (password ++
      (text "' AND LOGIN = true AND SUPERUSER = " ++ (bool superuser ++ text ";")))))
  | .grant permission keyspace role =>
    text "GRANT " ++ (permission.text ++ (text " ON KEYSPACE " ++ (keyspace ++ (text " TO " ++
      (role.text ++ text ";")))))
  | .createTable keyspace =>
    text "CREATE TABLE IF NOT EXISTS " ++ (keyspace ++
      text ".infrastructure_probe (id text PRIMARY KEY, value text);")
  | .alterRole role login =>
    text "ALTER ROLE " ++ (role.text ++ (text " WITH LOGIN = " ++ (bool login ++ text ";")))
  | .insert keyspace id value =>
    text "INSERT INTO " ++ (keyspace ++ (text ".infrastructure_probe (id, value) VALUES ('" ++ (id ++
      (text "', '" ++ (value ++ text "');")))))
  | .selectRelease => text "SELECT release_version FROM system.local;"
  | .selectValue keyspace id =>
    text "SELECT value FROM " ++ (keyspace ++ (text ".infrastructure_probe WHERE id = '" ++ (id ++ text "';")))
  | .selectEdges keyspace => text "SELECT * FROM " ++ (keyspace ++ text ".edgestore LIMIT 1;")
  | .selectProbe keyspace => text "SELECT * FROM " ++ (keyspace ++ text ".infrastructure_probe;")

/-- The file of a script: a statement on each line. -/
def renderScript (script : List Statement) : Text :=
  text "\n" ++ script.flatMap fun statement => statement.render ++ text "\n"

/-! ## Tokens -/

/-- A word of the grammar's own. -/
def word (s : String) : Token := .word (text s)

/-- A string between quotes. -/
def string (s : String) : Token := .string (text s)

/-- The words of a permission. -/
def Permission.tokens : Permission → List Token
  | .all => [word "all", word "permissions"]
  | .select => [word "select"]
  | .modify => [word "modify"]

/-- The tokens of a statement, without the symbol at its end. -/
def Statement.tokens : Statement → List Token
  | .createKeyspace keyspace dc =>
    [word "create", word "keyspace", word "if", word "not", word "exists", .word keyspace, word "with",
      word "replication", .symbol '=', .symbol '{', string "class", .symbol ':',
      string "NetworkTopologyStrategy", .symbol ',', .string dc, .symbol ':', word "1", .symbol '}']
  | .createRole role password superuser =>
    [word "create", word "role", word "if", word "not", word "exists", .word role.text, word "with",
      word "password", .symbol '=', .string password, word "and", word "login", .symbol '=', word "true",
      word "and", word "superuser", .symbol '=', .word (bool superuser)]
  | .grant permission keyspace role =>
    word "grant" :: (permission.tokens ++
      [word "on", word "keyspace", .word keyspace, word "to", .word role.text])
  | .createTable keyspace =>
    [word "create", word "table", word "if", word "not", word "exists", .word keyspace, .symbol '.',
      word "infrastructure_probe", .symbol '(', word "id", word "text", word "primary", word "key",
      .symbol ',', word "value", word "text", .symbol ')']
  | .alterRole role login =>
    [word "alter", word "role", .word role.text, word "with", word "login", .symbol '=', .word (bool login)]
  | .insert keyspace id value =>
    [word "insert", word "into", .word keyspace, .symbol '.', word "infrastructure_probe", .symbol '(',
      word "id", .symbol ',', word "value", .symbol ')', word "values", .symbol '(', .string id, .symbol ',',
      .string value, .symbol ')']
  | .selectRelease =>
    [word "select", word "release_version", word "from", word "system", .symbol '.', word "local"]
  | .selectValue keyspace id =>
    [word "select", word "value", word "from", .word keyspace, .symbol '.', word "infrastructure_probe",
      word "where", word "id", .symbol '=', .string id]
  | .selectEdges keyspace =>
    [word "select", .symbol '*', word "from", .word keyspace, .symbol '.', word "edgestore", word "limit",
      word "1"]
  | .selectProbe keyspace =>
    [word "select", .symbol '*', word "from", .word keyspace, .symbol '.', word "infrastructure_probe"]

/-- The symbol behind every statement. -/
def endToken : Token := .symbol ';'

/-- A keyspace that is one word, and nothing with a quote in a string. -/
def Statement.Safe : Statement → Prop
  | .createKeyspace keyspace dc => isIdentifier keyspace = true ∧ '\'' ∉ dc
  | .createRole _ password _ => '\'' ∉ password
  | .grant _ keyspace _ | .createTable keyspace | .selectEdges keyspace | .selectProbe keyspace =>
    isIdentifier keyspace = true
  | .alterRole .. | .selectRelease => True
  | .insert keyspace id value => isIdentifier keyspace = true ∧ '\'' ∉ id ∧ '\'' ∉ value
  | .selectValue keyspace id => isIdentifier keyspace = true ∧ '\'' ∉ id

/-! ## What is read -/

/-- `[a-z0-9_]` -/
def isIdentifierChar (c : Char) : Bool := ('a' ≤ c && c ≤ 'z') || ('0' ≤ c && c ≤ '9') || c == '_'

theorem isWordChar_identifier {c : Char} (h : isIdentifierChar c = true) : isWordChar c = true ∧
    c.toLower = c := by
  have hascii : c.toNat < 128 := by
    simp only [isIdentifierChar, Bool.or_eq_true, Bool.and_eq_true, decide_eq_true_eq, beq_iff_eq, Char.le_def,
      UInt32.le_iff_toNat_le] at h
    have hval : c.val.toNat = c.toNat := rfl
    have hz : ('z' : Char).val.toNat = 122 := rfl
    have hnine : ('9' : Char).val.toNat = 57 := rfl
    rcases h with (h | h) | rfl
    · omega
    · omega
    · decide
  have hall : ((List.range 128).map Char.ofNat).all (fun c =>
      !isIdentifierChar c || (isWordChar c && c.toLower == c)) = true := by decide +kernel
  have hmem : c ∈ (List.range 128).map Char.ofNat :=
    List.mem_map.2 ⟨c.toNat, List.mem_range.2 hascii, Char.ofNat_toNat c⟩
  simpa [h] using List.all_eq_true.1 hall c hmem

theorem isIdentifier_plain {keyspace : Text} (h : isIdentifier keyspace = true) :
    Plain keyspace ∧ keyspace ≠ [] := by
  cases keyspace with
  | nil => cases h
  | cons c rest =>
    simp only [isIdentifier, Bool.and_eq_true, List.all_eq_true] at h
    refine ⟨fun c' hc' => isWordChar_identifier ?_, by simp⟩
    unfold isIdentifierChar
    rcases List.mem_cons.1 hc' with rfl | hc'
    · simp [h.1]
    · exact h.2 c' hc'

theorem RoleName.text_plain (role : RoleName) : Plain role.text ∧ role.text ≠ [] := by
  refine isIdentifier_plain ?_
  cases role <;> decide

theorem bool_plain (b : Bool) : Plain (bool b) ∧ bool b ≠ [] := by
  refine isIdentifier_plain ?_
  cases b <;> decide

/-- **A statement is read as it was meant.** -/
theorem Statement.run_render {statement : Statement} (h : statement.Safe) :
    lexer.run .between statement.render = (.between, statement.tokens ++ [endToken]) := by
  cases statement with
  | createKeyspace keyspace dc =>
    obtain ⟨hplain, hne⟩ := isIdentifier_plain h.1
    have hhead : lexer.run .between (text "CREATE KEYSPACE IF NOT EXISTS ") =
        (.between, [word "create", word "keyspace", word "if", word "not", word "exists"]) := by decide +kernel
    have hclass : lexer.run .between (text " WITH replication = \x7b'class': 'NetworkTopologyStrategy', '") =
        (.quoted [], [word "with", word "replication", .symbol '=', .symbol '{', string "class", .symbol ':',
          string "NetworkTopologyStrategy", .symbol ',']) := by decide +kernel
    have hend : lexer.run .between (text "': 1\x7d;").tail =
        (.between, [.symbol ':', word "1", .symbol '}', .symbol ';']) := by decide +kernel
    rw [render, ← List.append_nil (text "': 1\x7d;"), read_fixed hhead, read_word hplain hne (by decide) hclass,
      read_string h.2 (by decide) (by decide) hend]
    rfl
  | createRole role password superuser =>
    obtain ⟨hplain, hne⟩ := role.text_plain
    obtain ⟨hplain', hne'⟩ := bool_plain superuser
    have hhead : lexer.run .between (text "CREATE ROLE IF NOT EXISTS ") =
        (.between, [word "create", word "role", word "if", word "not", word "exists"]) := by decide +kernel
    have hpassword : lexer.run .between (text " WITH PASSWORD = '") =
        (.quoted [], [word "with", word "password", .symbol '=']) := by decide +kernel
    have hlogin : lexer.run .between (text "' AND LOGIN = true AND SUPERUSER = ").tail =
        (.between, [word "and", word "login", .symbol '=', word "true", word "and", word "superuser",
          .symbol '=']) := by decide +kernel
    have hend : lexer.run .between (text ";") = (.between, [.symbol ';']) := by decide +kernel
    rw [render, ← List.append_nil (text ";"), read_fixed hhead, read_word hplain hne (by decide) hpassword,
      read_string h (by decide) (by decide) hlogin, read_word hplain' hne' (by decide) hend]
    rfl
  | grant permission keyspace role =>
    obtain ⟨hplain, hne⟩ := isIdentifier_plain h
    obtain ⟨hplain', hne'⟩ := role.text_plain
    have hhead : lexer.run .between (text "GRANT " ++ (permission.text ++ text " ON KEYSPACE ")) =
        (.between, word "grant" :: (permission.tokens ++ [word "on", word "keyspace"])) := by
      cases permission <;> decide +kernel
    have hto : lexer.run .between (text " TO ") = (.between, [word "to"]) := by decide +kernel
    have hend : lexer.run .between (text ";") = (.between, [.symbol ';']) := by decide +kernel
    have hrest := read_fixed hhead (keyspace ++ (text " TO " ++ (role.text ++ (text ";" ++ []))))
    rw [read_word hplain hne (by decide) hto, read_word hplain' hne' (by decide) hend] at hrest
    simpa [render, tokens, endToken, Lexer.run, List.append_assoc] using hrest
  | createTable keyspace =>
    obtain ⟨hplain, hne⟩ := isIdentifier_plain h
    have hhead : lexer.run .between (text "CREATE TABLE IF NOT EXISTS ") =
        (.between, [word "create", word "table", word "if", word "not", word "exists"]) := by decide +kernel
    have hend : lexer.run .between (text ".infrastructure_probe (id text PRIMARY KEY, value text);") =
        (.between, [.symbol '.', word "infrastructure_probe", .symbol '(', word "id", word "text",
          word "primary", word "key", .symbol ',', word "value", word "text", .symbol ')', .symbol ';']) := by
      decide +kernel
    rw [render, ← List.append_nil (text ".infrastructure_probe (id text PRIMARY KEY, value text);"),
      read_fixed hhead, read_word hplain hne (by decide) hend]
    rfl
  | alterRole role login =>
    obtain ⟨hplain, hne⟩ := role.text_plain
    obtain ⟨hplain', hne'⟩ := bool_plain login
    have hhead : lexer.run .between (text "ALTER ROLE ") = (.between, [word "alter", word "role"]) := by
      decide +kernel
    have hlogin : lexer.run .between (text " WITH LOGIN = ") =
        (.between, [word "with", word "login", .symbol '=']) := by decide +kernel
    have hend : lexer.run .between (text ";") = (.between, [.symbol ';']) := by decide +kernel
    rw [render, ← List.append_nil (text ";"), read_fixed hhead, read_word hplain hne (by decide) hlogin,
      read_word hplain' hne' (by decide) hend]
    rfl
  | insert keyspace id value =>
    obtain ⟨hplain, hne⟩ := isIdentifier_plain h.1
    have hhead : lexer.run .between (text "INSERT INTO ") = (.between, [word "insert", word "into"]) := by
      decide +kernel
    have hvalues : lexer.run .between (text ".infrastructure_probe (id, value) VALUES ('") =
        (.quoted [], [.symbol '.', word "infrastructure_probe", .symbol '(', word "id", .symbol ',',
          word "value", .symbol ')', word "values", .symbol '(']) := by decide +kernel
    have hnext : lexer.run .between (text "', '").tail = (.quoted [], [.symbol ',']) := by decide +kernel
    have hend : lexer.run .between (text "');").tail = (.between, [.symbol ')', .symbol ';']) := by
      decide +kernel
    rw [render, ← List.append_nil (text "');"), read_fixed hhead, read_word hplain hne (by decide) hvalues,
      read_string h.2.1 (by decide) (by decide) hnext, read_string h.2.2 (by decide) (by decide) hend]
    rfl
  | selectRelease => decide +kernel
  | selectValue keyspace id =>
    obtain ⟨hplain, hne⟩ := isIdentifier_plain h.1
    have hhead : lexer.run .between (text "SELECT value FROM ") =
        (.between, [word "select", word "value", word "from"]) := by decide +kernel
    have hwhere : lexer.run .between (text ".infrastructure_probe WHERE id = '") =
        (.quoted [], [.symbol '.', word "infrastructure_probe", word "where", word "id", .symbol '=']) := by
      decide +kernel
    have hend : lexer.run .between (text "';").tail = (.between, [.symbol ';']) := by decide +kernel
    rw [render, ← List.append_nil (text "';"), read_fixed hhead, read_word hplain hne (by decide) hwhere,
      read_string h.2 (by decide) (by decide) hend]
    rfl
  | selectEdges keyspace =>
    obtain ⟨hplain, hne⟩ := isIdentifier_plain h
    have hhead : lexer.run .between (text "SELECT * FROM ") =
        (.between, [word "select", .symbol '*', word "from"]) := by decide +kernel
    have hend : lexer.run .between (text ".edgestore LIMIT 1;") =
        (.between, [.symbol '.', word "edgestore", word "limit", word "1", .symbol ';']) := by decide +kernel
    rw [render, ← List.append_nil (text ".edgestore LIMIT 1;"), read_fixed hhead,
      read_word hplain hne (by decide) hend]
    rfl
  | selectProbe keyspace =>
    obtain ⟨hplain, hne⟩ := isIdentifier_plain h
    have hhead : lexer.run .between (text "SELECT * FROM ") =
        (.between, [word "select", .symbol '*', word "from"]) := by decide +kernel
    have hend : lexer.run .between (text ".infrastructure_probe;") =
        (.between, [.symbol '.', word "infrastructure_probe", .symbol ';']) := by decide +kernel
    rw [render, ← List.append_nil (text ".infrastructure_probe;"), read_fixed hhead,
      read_word hplain hne (by decide) hend]
    rfl

theorem run_renderScript {script : List Statement} (h : ∀ statement ∈ script, statement.Safe) :
    lexer.run .between (renderScript script) =
      (.between, script.flatMap fun statement => statement.tokens ++ [endToken]) := by
  have hline : lexer.run .between (text "\n") = (.between, []) := by decide
  have hall : lexer.run .between (script.flatMap fun statement => statement.render ++ text "\n") =
      (.between, script.flatMap fun statement => statement.tokens ++ [endToken]) := by
    induction script with
    | nil => rfl
    | cons statement rest ih =>
      have hrest := ih fun statement hs => h statement (by simp [hs])
      rw [List.flatMap_cons, List.append_assoc, read_fixed (Statement.run_render (h statement (by simp))),
        read_fixed hline, hrest, List.flatMap_cons, List.nil_append]
  rw [renderScript, read_fixed hline, hall, List.nil_append]

end CartyxInfra.Cassandra
