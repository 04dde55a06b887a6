/-
What `cqlsh` reads of the file that `cassandra-admin.py` writes for it.

`script_read`: whatever has passed the script's own checks is read back as it
was meant, unless a keyspace has the name of a reserved word, which the checks
let pass. `main_read`: nothing else is ever sent. `diagnostics_redacted`: what
the script prints of the errors it is answered with has no secret in it.
-/
import CartyxInfra.Cassandra.Cql
import CartyxInfra.Lib.Redaction

namespace CartyxInfra.Cassandra

open Sql

/-! ## A reader of statements -/

/-- A reader takes tokens off the beginning of a list. -/
abbrev Reader := StateT (List Token) Option

/-- Takes just these tokens off. -/
def expect (fixed : List Token) : Reader Unit := fun tokens =>
  if tokens.take fixed.length = fixed then some ((), tokens.drop fixed.length) else none

/-- A name without quotes: a word that is an identifier, and no word of the grammar's own. -/
def readName (reserved : Text → Bool) : Reader Text
  | .word name :: rest => if isIdentifier name && !reserved name then some (name, rest) else none
  | _ => none

/-- A string, with what was between its quotes. -/
def readString : Reader Text
  | .string text :: rest => some (text, rest)
  | _ => none

/-- `true` or `false`. -/
def readBool : Reader Bool
  | .word word :: rest =>
    if word = bool true then some (true, rest) else if word = bool false then some (false, rest) else none
  | _ => none

/-- The name of one of the four roles. -/
def readRole : Reader RoleName
  | .word word :: rest =>
    ([.cassandra, .cartyxAdmin, .cartyxGraph, .cartyxState].find? fun role => word = role.text).map (·, rest)
  | _ => none

variable (reserved : Text → Bool)

/-- The table of a `SELECT *`, with the limit that the one has. -/
def readTable (keyspace : Text) : Reader Statement
  | .word table :: rest =>
    if .word table = word "edgestore" then
      if rest.take 2 = [word "limit", word "1"] then some (.selectEdges keyspace, rest.drop 2) else none
    else if .word table = word "infrastructure_probe" then some (.selectProbe keyspace, rest)
    else none
  | _ => none

/-- `CREATE KEYSPACE`, from behind these words on. -/
def readCreateKeyspace : Reader Statement := do
  expect [word "if", word "not", word "exists"]
  let keyspace ← readName reserved
  expect [word "with", word "replication", .symbol '=', .symbol '{', string "class", .symbol ':',
    string "NetworkTopologyStrategy", .symbol ',']
  let dc ← readString
  expect [.symbol ':', word "1", .symbol '}']
  pure (.createKeyspace keyspace dc)

/-- `CREATE ROLE`, from behind these words on. -/
def readCreateRole : Reader Statement := do
  expect [word "if", word "not", word "exists"]
  let role ← readRole
  expect [word "with", word "password", .symbol '=']
  let password ← readString
  expect [word "and", word "login", .symbol '=', word "true", word "and", word "superuser", .symbol '=']
  let superuser ← readBool
  pure (.createRole role password superuser)

/-- `CREATE TABLE`, from behind these words on. -/
def readCreateTable : Reader Statement := do
  expect [word "if", word "not", word "exists"]
  let keyspace ← readName reserved
  expect [.symbol '.', word "infrastructure_probe", .symbol '(', word "id", word "text", word "primary",
    word "key", .symbol ',', word "value", word "text", .symbol ')']
  pure (.createTable keyspace)

/-- `ALTER ROLE`, from behind these words on. -/
def readAlterRole : Reader Statement := do
  let role ← readRole
  expect [word "with", word "login", .symbol '=']
  let login ← readBool
  pure (.alterRole role login)

/-- `GRANT` and a permission, from behind these words on. -/
def readGrant (permission : Permission) : Reader Statement := do
  expect [word "on", word "keyspace"]
  let keyspace ← readName reserved
  expect [word "to"]
  let role ← readRole
  pure (.grant permission keyspace role)

/-- `INSERT INTO`, from behind these words on. -/
def readInsert : Reader Statement := do
  let keyspace ← readName reserved
  expect [.symbol '.', word "infrastructure_probe", .symbol '(', word "id", .symbol ',', word "value",
    .symbol ')', word "values", .symbol '(']
  let id ← readString
  expect [.symbol ',']
  let value ← readString
  expect [.symbol ')']
  pure (.insert keyspace id value)

/-- `SELECT release_version`, from behind these words on. -/
def readSelectRelease : Reader Statement := do
  expect [word "from", word "system", .symbol '.', word "local"]
  pure .selectRelease

/-- `SELECT value`, from behind these words on. -/
def readSelectValue : Reader Statement := do
  expect [word "from"]
  let keyspace ← readName reserved
  expect [.symbol '.', word "infrastructure_probe", word "where", word "id", .symbol '=']
  let id ← readString
  pure (.selectValue keyspace id)

/-- The tables that are selected from as they are. -/
def readSelectAll : Reader Statement := do
  let keyspace ← readName reserved
  expect [.symbol '.']
  readTable keyspace

/-- The kinds of statements by the words they begin with. -/
def readers : List (List Token × Reader Statement) :=
  [([word "create", word "keyspace"], readCreateKeyspace reserved),
   ([word "create", word "role"], readCreateRole),
   ([word "create", word "table"], readCreateTable reserved),
   ([word "alter", word "role"], readAlterRole),
   ([word "grant", word "all", word "permissions"], readGrant reserved .all),
   ([word "grant", word "select"], readGrant reserved .select),
   ([word "grant", word "modify"], readGrant reserved .modify),
   ([word "insert", word "into"], readInsert reserved),
   ([word "select", word "release_version"], readSelectRelease),
   ([word "select", word "value"], readSelectValue reserved),
   ([word "select", .symbol '*', word "from"], readSelectAll reserved)]

/-- A statement, without anything behind it. -/
def readStatement (tokens : List Token) : Option Statement :=
  match (readers reserved).find? fun kind => tokens.take kind.1.length = kind.1 with
  | some kind =>
    match kind.2 (tokens.drop kind.1.length) with
    | some (statement, []) => some statement
    | _ => none
  | none => none

/-- The statements of a file: each ends with its symbol, the last one too. -/
def split : List Token → List Token → Option (List (List Token))
  | current, [] => if current = [] then some [] else none
  | current, token :: rest =>
    if token = endToken then (split [] rest).map (current :: ·) else split (current ++ [token]) rest

/-- The statements that a file is read as. -/
def readScript (file : Text) : Option (List Statement) :=
  (lexer.lex .between file).bind fun tokens =>
    (split [] tokens).bind fun parts => parts.mapM (readStatement reserved)

/-! ## What is read back -/

variable {reserved}

theorem reader_bind {α β : Type} (m : Reader α) (f : α → Reader β) (tokens : List Token) :
    (m >>= f) tokens = (m tokens).bind fun out => f out.1 out.2 := rfl

theorem reader_map {α β : Type} (f : α → β) (m : Reader α) (tokens : List Token) :
    (f <$> m) tokens = (m tokens).map fun out => (f out.1, out.2) := by
  cases hm : m tokens <;> simp [Functor.map, StateT.map, hm]

theorem readName_word {name : Text} (h : isIdentifier name = true) (rest : List Token) :
    readName reserved (.word name :: rest) = if reserved name then none else some (name, rest) := by
  cases hr : reserved name <;> simp [readName, h, hr]

theorem readBool_bool (b : Bool) (rest : List Token) : readBool (.word (bool b) :: rest) = some (b, rest) := by
  cases b <;> rfl

theorem readRole_text (role : RoleName) (rest : List Token) :
    readRole (.word role.text :: rest) = some (role, rest) := by
  cases role <;> rfl

/-- The names in a statement that the grammar may have a word of its own for. -/
def Statement.names : Statement → List Text
  | .createKeyspace keyspace _ | .grant _ keyspace _ | .createTable keyspace | .insert keyspace _ _ |
    .selectValue keyspace _ | .selectEdges keyspace | .selectProbe keyspace => [keyspace]
  | .createRole .. | .alterRole .. | .selectRelease => []

/-- A statement is read as its kind reads it. -/
theorem readStatement_kind {statement : Statement} (kind : List Token × Reader Statement)
    (hkind : (readers reserved).find? (fun kind => statement.tokens.take kind.1.length = kind.1) = some kind)
    (hread : kind.2 (statement.tokens.drop kind.1.length) =
      if statement.names.all fun name => !reserved name then some (statement, []) else none) :
    readStatement reserved statement.tokens =
      if statement.names.all fun name => !reserved name then some statement else none := by
  rw [readStatement, hkind]
  dsimp only
  rw [hread]
  by_cases hn : (statement.names.all fun name => !reserved name) = true
  · rw [if_pos hn, if_pos hn]
  · rw [if_neg hn, if_neg hn]

theorem readStatement_tokens {statement : Statement} (h : statement.Safe) :
    readStatement reserved statement.tokens =
      if statement.names.all fun name => !reserved name then some statement else none := by
  cases statement with
  | createKeyspace keyspace dc =>
    refine readStatement_kind ([word "create", word "keyspace"], readCreateKeyspace reserved) rfl ?_
    cases hr : reserved keyspace <;>
      simp [Statement.tokens, Statement.names, readCreateKeyspace, reader_bind, reader_map, expect,
        readName_word h.1, readString, hr]
  | createRole role password superuser =>
    refine readStatement_kind ([word "create", word "role"], readCreateRole) rfl ?_
    simp [Statement.tokens, Statement.names, readCreateRole, reader_bind, reader_map, expect,
      readRole_text, readString, readBool_bool]
  | grant permission keyspace role =>
    refine readStatement_kind (word "grant" :: permission.tokens, readGrant reserved permission) ?_ ?_
    · cases permission <;> rfl
    · cases hr : reserved keyspace <;> cases permission <;>
        simp [Statement.tokens, Permission.tokens, Statement.names, readGrant, reader_bind, reader_map, expect,
          readName_word h, readRole_text, hr]
  | createTable keyspace =>
    refine readStatement_kind ([word "create", word "table"], readCreateTable reserved) rfl ?_
    cases hr : reserved keyspace <;>
      simp [Statement.tokens, Statement.names, readCreateTable, reader_bind, reader_map, expect,
        readName_word h, hr]
  | alterRole role login =>
    refine readStatement_kind ([word "alter", word "role"], readAlterRole) rfl ?_
    simp [Statement.tokens, Statement.names, readAlterRole, reader_bind, reader_map, expect,
      readRole_text, readBool_bool]
  | insert keyspace id value =>
    refine readStatement_kind ([word "insert", word "into"], readInsert reserved) rfl ?_
    cases hr : reserved keyspace <;>
      simp [Statement.tokens, Statement.names, readInsert, reader_bind, reader_map, expect,
        readName_word h.1, readString, hr]
  | selectRelease =>
    refine readStatement_kind ([word "select", word "release_version"], readSelectRelease) rfl ?_
    rfl
  | selectValue keyspace id =>
    refine readStatement_kind ([word "select", word "value"], readSelectValue reserved) rfl ?_
    cases hr : reserved keyspace <;>
      simp [Statement.tokens, Statement.names, readSelectValue, reader_bind, reader_map, expect,
        readName_word h.1, readString, hr]
  | selectEdges keyspace | selectProbe keyspace =>
    refine readStatement_kind ([word "select", .symbol '*', word "from"], readSelectAll reserved) rfl ?_
    cases hr : reserved keyspace <;>
      simp [Statement.tokens, Statement.names, readSelectAll, reader_bind, expect, readName_word h, readTable,
        word, text, hr]

theorem split_append {tokens : List Token} (h : endToken ∉ tokens) (current rest : List Token) :
    split current (tokens ++ endToken :: rest) = (split [] rest).map ((current ++ tokens) :: ·) := by
  induction tokens generalizing current with
  | nil => simp [split]
  | cons token tokens ih =>
    simp only [List.mem_cons, not_or] at h
    have hne : token ≠ endToken := Ne.symm h.1
    rw [List.cons_append, split, if_neg hne, ih h.2]
    simp

theorem Statement.endToken_notMem (statement : Statement) : endToken ∉ statement.tokens := by
  cases statement with
  | grant permission => cases permission <;> simp [tokens, Permission.tokens, endToken, word]
  | _ => simp [tokens, endToken, word, string]

theorem split_script (script : List Statement) :
    split [] (script.flatMap fun statement => statement.tokens ++ [endToken]) =
      some (script.map Statement.tokens) := by
  induction script with
  | nil => rfl
  | cons statement script ih =>
    rw [List.flatMap_cons, List.append_assoc, List.singleton_append, split_append statement.endToken_notMem, ih]
    rfl

theorem mapM_readStatement {script : List Statement} (h : ∀ statement ∈ script, statement.Safe) :
    (script.map Statement.tokens).mapM (readStatement reserved) =
      if script.all fun statement => statement.names.all fun name => !reserved name then some script
      else none := by
  induction script with
  | nil => rfl
  | cons statement script ih =>
    have hrest := ih fun statement hs => h statement (by simp [hs])
    rw [List.map_cons, List.mapM_cons, readStatement_tokens (h statement (by simp)), hrest, List.all_cons]
    cases statement.names.all fun name => !reserved name
    · rfl
    · cases script.all fun statement => statement.names.all fun name => !reserved name <;> rfl

theorem readScript_renderScript {script : List Statement} (h : ∀ statement ∈ script, statement.Safe) :
    readScript reserved (renderScript script) =
      if script.all fun statement => statement.names.all fun name => !reserved name then some script
      else none := by
  have hlex : lexer.lex .between (renderScript script) =
      some (script.flatMap fun statement => statement.tokens ++ [endToken]) := by
    rw [Lexer.lex, run_renderScript h]
    exact congrArg some (List.append_nil _)
  rw [readScript, hlex, Option.bind_some, split_script, Option.bind_some, mapM_readStatement h]

/-- **A script that passes the checks is read back as it was meant**, statement
for statement, if and only if no keyspace in it has a reserved word's name. -/
theorem script_read {script : List Statement} (h : ∀ statement ∈ script, statement.Safe) :
    readScript reserved (renderScript script) = some script ↔
      ∀ statement ∈ script, ∀ name ∈ statement.names, reserved name = false := by
  rw [readScript_renderScript h]
  simp

/-! ## What is sent -/

variable {setup : Setup}

theorem quote_notMem_identifier {value : Text} (h : isIdentifier value = true) : '\'' ∉ value := by
  intro hquote
  have hplain := (isIdentifier_plain h).1 '\'' hquote
  exact absurd hplain.1 (by decide)

theorem quote_notMem_generated {value : Text} (h : isGenerated value = true) : '\'' ∉ value := by
  intro hquote
  simp only [isGenerated, Bool.and_eq_true, List.all_eq_true] at h
  exact absurd (h.2 '\'' hquote) (by decide)

/-- The settings have passed their check. -/
def Setup.Checked (setup : Setup) : Prop :=
  isIdentifier setup.graph = true ∧ isIdentifier setup.state = true ∧ isIdentifier setup.dc = true

/-- A statement of the script, about the two keyspaces. -/
def Statement.Ours (setup : Setup) (statement : Statement) : Prop :=
  statement.Safe ∧ ∀ name ∈ statement.names, name = setup.graph ∨ name = setup.state

theorem statements_ours (h : setup.Checked) {graph state : Text} (hgraph : isGenerated graph = true)
    (hstate : isGenerated state = true) {statement : Statement}
    (hs : statement ∈ statements setup graph state) : statement.Ours setup := by
  obtain ⟨hg, hst, hdc⟩ := h
  have hdc' := quote_notMem_identifier hdc
  simp only [statements, List.mem_cons, List.not_mem_nil, or_false] at hs
  rcases hs with rfl | rfl | rfl | rfl | rfl | rfl | rfl | rfl | rfl | rfl
  · exact ⟨⟨hg, hdc'⟩, by simp [Statement.names]⟩
  · exact ⟨⟨hst, hdc'⟩, by simp [Statement.names]⟩
  · exact ⟨quote_notMem_generated hgraph, by simp [Statement.names]⟩
  · exact ⟨quote_notMem_generated hstate, by simp [Statement.names]⟩
  · exact ⟨hg, by simp [Statement.names]⟩
  · exact ⟨hst, by simp [Statement.names]⟩
  · exact ⟨hst, by simp [Statement.names]⟩
  · exact ⟨hst, by simp [Statement.names]⟩
  · exact ⟨trivial, by simp [Statement.names]⟩
  · exact ⟨⟨hst, by decide, by decide⟩, by simp [Statement.names]⟩

/-- An environment with this keyspace for the graph. -/
def setupOf (graph : Text) : Setup := ⟨graph, text "cartyx_state", text "dc1", fun _ => List.replicate 64 'a'⟩

/-- Its provisioning script. -/
def scriptOf (graph : Text) : List Statement :=
  statements (setupOf graph) (List.replicate 64 'a') (List.replicate 64 'b')

theorem scriptOf_safe {graph : Text} (h : isIdentifier graph = true) :
    ∀ statement ∈ scriptOf graph, statement.Safe := by
  intro statement hs
  have hstate : isIdentifier (text "cartyx_state") = true := by decide
  have hdc : isIdentifier (text "dc1") = true := by decide
  have hchecked : (setupOf graph).Checked := ⟨h, hstate, hdc⟩
  exact (statements_ours hchecked (by decide) (by decide) hs).1

/-- `token` is an identifier to the script, and a reserved word of CQL. -/
theorem script_read_sample :
    readScript (· == text "token") (renderScript (scriptOf (text "graph"))) =
      some (scriptOf (text "graph")) ∧
    readScript (· == text "token") (renderScript (scriptOf (text "token"))) ≠
      some (scriptOf (text "token")) := by
  refine ⟨(script_read (scriptOf_safe (by decide))).2 (by decide), fun hread => ?_⟩
  have hfree := (script_read (scriptOf_safe (by decide))).1 hread _ (.head _) (text "token") (by decide)
  exact absurd hfree (by decide)

/-- What a call sends is one of the script's statements. -/
def Call.Ours (setup : Setup) : Call → Prop
  | .execute _ statement => statement.Ours setup
  | .connect .. | .sleep _ => True

/-- A program that sends nothing else, whatever it is answered. -/
abbrev Sends (setup : Setup) {α : Type} (m : Py α) : Prop := Program.Calls (Call.Ours setup) false m

/-- What follows an exception is not run. -/
theorem throw_bind_sends {α β : Type} (raised : Raised) (f : α → Py β) : Sends setup (throw raised >>= f) := by
  intro s h
  cases h

theorem secret_bind {α : Type} {name : SecretName} {f : Text → Py α}
    (h : isGenerated (setup.secrets name) = true → Sends setup (f (setup.secrets name))) :
    Sends setup (secret setup name >>= f) := by
  unfold secret
  split
  · rename_i hg
    exact h hg
  · exact throw_bind_sends _ _

theorem executeAll_sends (user : RoleName) : ∀ {script : List Statement} (result : Completed),
    (∀ statement ∈ script, statement.Ours setup) → Sends setup (executeAll user script result)
  | [], result, _ => .pure result
  | statement :: script, result, h => by
    refine .bind (.make (h statement (by simp))) fun answer => ?_
    have hrest := fun statement hs => h statement (List.mem_cons_of_mem _ hs)
    cases answer with
    | ok => exact executeAll_sends user _ hrest
    | failed => exact executeAll_sends user _ hrest
    | expired => exact .throw _

theorem query_sends {script : List Statement} (h : ∀ statement ∈ script, statement.Ours setup) (user : RoleName)
    (password expected : Option Text) : Sends setup (query setup script user password expected) := by
  have hrun : ∀ password, Sends setup (cqlsh user password script) := by
    intro password
    refine .bind (.make trivial) fun answer => ?_
    cases answer with
    | ok => exact executeAll_sends user _ h
    | failed => exact .pure _
    | expired => exact .throw _
  cases password with
  | none => exact secret_bind fun _ => (hrun _).bind fun _ => .pure _
  | some password => exact (hrun _).bind fun _ => .pure _

theorem query_sends_one {statement : Statement} (h : statement.Ours setup) (user : RoleName)
    (password expected : Option Text) : Sends setup (query setup [statement] user password expected) :=
  query_sends (by simpa using h) user password expected

theorem orTimeout_sends {α : Type} {m : Py α} (h : Sends setup m) (a : α) : Sends setup (orTimeout m a) := by
  refine h.tryCatch fun raised => ?_
  cases raised with
  | timeoutExpired => exact .pure a
  | valueError | assertionError | systemExit => exact .throw _

theorem assert_sends {holds : Bool} {message : Text} : Sends setup (assert holds message) := by
  unfold assert
  split
  · exact .pure _
  · exact .throw _

theorem login_sends : Sends setup (login setup) := by
  have hselect : Statement.Ours setup .selectRelease := ⟨trivial, by simp [Statement.names]⟩
  refine (query_sends_one hselect _ _ _).bind fun known => ?_
  cases known with
  | true => exact .pure _
  | false =>
    refine secret_bind fun hadmin => ?_
    have hcreate : Statement.Ours setup (.createRole .cartyxAdmin (setup.secrets .admin) true) :=
      ⟨quote_notMem_generated hadmin, by simp [Statement.names]⟩
    refine (query_sends_one hcreate _ _ _).bind fun created => ?_
    cases created <;> exact .pure _

theorem authenticate_sends : ∀ attempts : Nat, Sends setup (authenticate setup attempts)
  | 0 => .throw _
  | attempts + 1 => by
    refine (orTimeout_sends login_sends _).bind fun turn => ?_
    cases turn with
    | «break» => exact .pure _
    | «continue» => exact authenticate_sends attempts
    | pass => exact .bind (.make trivial) fun _ => authenticate_sends attempts

theorem provision_sends {script : List Statement} (h : ∀ statement ∈ script, statement.Ours setup) :
    ∀ attempts : Nat, Sends setup (provision setup script attempts)
  | 0 => .throw _
  | attempts + 1 => by
    refine (orTimeout_sends (query_sends h _ _ _) _).bind fun done => ?_
    cases done with
    | true => exact .pure _
    | false => exact .bind (.make trivial) fun _ => provision_sends h attempts

/-- What is tried is a statement of the script too. -/
theorem security_sends (hc : setup.Checked) : Sends setup (security setup) := by
  have hedges : Statement.Ours setup (.selectEdges setup.graph) := ⟨hc.1, by simp [Statement.names]⟩
  have hprobe : Statement.Ours setup (.selectProbe setup.state) := ⟨hc.2.1, by simp [Statement.names]⟩
  have hselect : Statement.Ours setup .selectRelease := ⟨trivial, by simp [Statement.names]⟩
  refine (query_sends_one hedges _ _ _).bind fun _ => assert_sends.bind fun _ => ?_
  refine secret_bind fun _ => (query_sends_one hprobe _ _ _).bind fun _ => assert_sends.bind fun _ => ?_
  refine secret_bind fun _ => (query_sends_one hedges _ _ _).bind fun _ => assert_sends.bind fun _ => ?_
  refine secret_bind fun _ => (query_sends_one hprobe _ _ _).bind fun _ => assert_sends.bind fun _ => ?_
  exact (query_sends_one hselect _ _ _).bind fun _ => assert_sends.bind fun _ => .throw _

theorem main_sends (setup : Setup) (mode : Mode) : Sends setup (main setup mode) := by
  unfold main checkIdentifiers
  split
  · rename_i hchecked
    have hc : setup.Checked := by simpa [Setup.Checked] using hchecked
    cases mode with
    | ready =>
      have hselect : Statement.Ours setup (.selectValue setup.state (text "bootstrap-v1")) :=
        ⟨⟨hc.2.1, by decide⟩, by simp [Statement.names]⟩
      exact (query_sends_one hselect _ _ _).bind fun _ => Program.Calls.throw _
    | security => exact security_sends hc
    | bootstrap =>
      refine (authenticate_sends 60).bind fun _ => ?_
      refine secret_bind fun hgraph => secret_bind fun hstate => ?_
      exact provision_sends (fun _ => statements_ours hc hgraph hstate) 12
    | other => exact Program.Calls.throw _
  · exact throw_bind_sends _ _

/-- What a call sends is read as the statement that is meant, unless a keyspace has a reserved word's name. -/
def Call.Read (setup : Setup) : Call → Prop
  | .execute _ statement =>
    ∀ reserved : Text → Bool, reserved setup.graph = false → reserved setup.state = false →
      readScript reserved (renderScript [statement]) = some [statement]
  | .connect .. | .sleep _ => True

/-- **In every mode, whatever the settings, the secrets and the answers are, each
statement that the script sends is read as the one that is meant.** -/
theorem main_read (setup : Setup) (mode : Mode) : Program.Calls (Call.Read setup) false (main setup mode) := by
  refine (main_sends setup mode).mono (fun call hcall => ?_) id
  cases call with
  | execute user statement =>
    intro reserved hgraph hstate
    obtain ⟨hsafe, hnames⟩ : statement.Ours setup := hcall
    have hfree : ∀ name ∈ statement.names, reserved name = false := by
      intro name hname
      rcases hnames name hname with rfl | rfl
      · exact hgraph
      · exact hstate
    rw [readScript_renderScript (by simpa using hsafe)]
    simpa using hfree
  | connect | sleep => trivial

/-! ## What is printed -/

/-- `[a-f0-9]` -/
def isHex (c : Char) : Bool := ('a' ≤ c && c ≤ 'f') || ('0' ≤ c && c ≤ '9')

/-- `re.sub(r'[a-f0-9]{64}', '[REDACTED]', stderr)`. -/
def redacted (stderr : Text) : Text := (Regex.runs isHex 63).sub (text "[REDACTED]") stderr

/-- What `query` prints, asked for diagnostics with `CARTYX_CQL_DIAGNOSTICS`. -/
def diagnostics (asked : Bool) (result : Completed) (expected : Option Text) : Option Text :=
  if !result.succeeds expected && asked then some (redacted result.stderr) else none

theorem isGenerated_iff {value : Text} :
    isGenerated value = true ↔ value.length = 64 ∧ ∀ c ∈ value, isHex c = true := by
  simp [isGenerated, isHex]

theorem free_iff_generated {text : Text} :
    Regex.Free isHex 63 text ↔ ∀ value, isGenerated value = true → ¬ value <:+: text := by
  rw [Regex.free_iff]
  constructor
  · intro h value hvalue hinfix
    obtain ⟨hlength, hall⟩ := isGenerated_iff.1 hvalue
    obtain ⟨c, hc, hhex⟩ := h value hinfix hlength
    rw [hall c hc] at hhex
    cases hhex
  · intro h window hinfix hlength
    by_contra hall
    push Not at hall
    exact h window (isGenerated_iff.2 ⟨hlength, fun c hc => by simpa using hall c hc⟩) hinfix

theorem redacted_free (stderr : Text) : Regex.Free isHex 63 (redacted stderr) := by
  have hall : (text "[REDACTED]").all (fun c => !isHex c) = true := by decide
  have hmark : ∀ c ∈ text "[REDACTED]", isHex c = false := by
    intro c hc
    simpa using List.all_eq_true.1 hall c hc
  exact Regex.sub_free hmark (by decide) stderr

/-- **Nothing that is printed has a generated secret in it**, whatever `cqlsh`
writes of the statements it was given; and only where a secret could be is
anything changed. -/
theorem diagnostics_redacted (asked : Bool) (result : Completed) (expected : Option Text) :
    diagnostics asked result expected = none ∨ ∃ printed, diagnostics asked result expected = some printed ∧
      (∀ value, isGenerated value = true → ¬ value <:+: printed) ∧
      (printed = result.stderr ↔ ∀ value, isGenerated value = true → ¬ value <:+: result.stderr) := by
  unfold diagnostics
  split
  · refine .inr ⟨redacted result.stderr, rfl, free_iff_generated.1 (redacted_free _), ?_⟩
    rw [← free_iff_generated]
    constructor
    · intro h
      exact h ▸ redacted_free _
    · exact Regex.sub_eq_self
  · exact .inl rfl

end CartyxInfra.Cassandra
