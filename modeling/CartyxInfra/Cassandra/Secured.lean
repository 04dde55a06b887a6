/-
What the rewritten `cassandra.yaml` says at its top level, and when that is
what the server is meant to be started with: authentication, authorization and
TLS on, all else as it was, and the same text if it is rewritten again.

The last holds of every text. The rest fails where a value has lines of its
own under the key, where a key is quoted, and where the block is followed by
no key that the look-ahead finds, or not by the first it should.
-/
import CartyxInfra.Lib.BlockStyle
import CartyxInfra.Cassandra.Configuration

namespace CartyxInfra.Cassandra

open Regex Yaml

namespace Configuration

/-- The lines before the first setting of a text. -/
def preamble (reader : Yaml.Reader) (text : List Char) : List Line := (reader.settings (text.splitOn '\n')).1

/-- The settings of a text. -/
def topLevel (reader : Yaml.Reader) (text : List Char) : List Setting := (reader.settings (text.splitOn '\n')).2

/-- The settings of a key. -/
def ofKey (name : Line) (all : List Setting) : List Setting := all.filter fun setting => setting.key == name

/-- The keys that the substitutions are about. -/
def KEYS : List Line := [AUTHENTICATOR, AUTHORIZER, ENCRYPTION]

/-- The keys that are given a value on their line, with it. -/
def VALUES : List (Line × Line) :=
  [(AUTHENTICATOR, "PasswordAuthenticator".toList), (AUTHORIZER, "CassandraAuthorizer".toList)]

/-- The settings that the rewrite is not about. -/
def others (all : List Setting) : List Setting := all.filter fun setting => !KEYS.contains setting.key

/-- Each of the three keys occurs once. -/
def Once (all : List Setting) : Prop := ∀ name ∈ KEYS, (ofKey name all).length = 1

instance (all : List Setting) : Decidable (Once all) := inferInstanceAs (Decidable (∀ name ∈ KEYS, _))

/-- The block turns TLS on, and plain connections off. -/
def On (reader : Yaml.Reader) (setting : Setting) : Prop :=
  reader.flag setting "enabled".toList = some true ∧ reader.flag setting "optional".toList = some false

instance (reader : Yaml.Reader) (setting : Setting) : Decidable (On reader setting) :=
  inferInstanceAs (Decidable (_ ∧ _))

/-- The text after the rewrite, against the text before. -/
structure Secured (reader : Yaml.Reader) (s tlsPassword s' : List Char) : Prop where
  authenticator : (ofKey AUTHENTICATOR (topLevel reader s')).map reader.scalar =
    [some "PasswordAuthenticator".toList]
  authorizer : (ofKey AUTHORIZER (topLevel reader s')).map reader.scalar = [some "CassandraAuthorizer".toList]
  encryption : ∃ setting, ofKey ENCRYPTION (topLevel reader s') = [setting] ∧ On reader setting
  others : others (topLevel reader s') = others (topLevel reader s)
  again : configure s' tlsPassword = some s'

/-! ## When the settings are as meant -/

/-- The line begins as the substitution of the key needs it. -/
def Begins (name line : Line) : Prop := name ++ [':'] <+: line

instance (name line : Line) : Decidable (Begins name line) := inferInstanceAs (Decidable (_ <+: _))

/-- What begins with the text of one of the three keys is the line of that key. -/
structure Own (front : List Line) (all : List Setting) : Prop where
  front : ∀ line ∈ front, ∀ name ∈ KEYS, ¬ Begins name line
  header : ∀ setting ∈ all, ∀ name ∈ KEYS, Begins name setting.header → setting.key = name
  nested : ∀ setting ∈ all, ∀ line ∈ setting.nested, ∀ name ∈ KEYS, ¬ Begins name line

/-- A line that is substituted needs to have no more of the value under it; one that is
not has to give the value. -/
def LineMeets (reader : Yaml.Reader) (name value : Line) (setting : Setting) : Prop :=
  if Begins name setting.header then ∀ line ∈ setting.nested, empty line = true
  else reader.scalar setting = some value

instance (reader : Yaml.Reader) (name value : Line) (setting : Setting) :
    Decidable (LineMeets reader name value setting) :=
  inferInstanceAs (Decidable (if Begins name setting.header then _ else _))

/-- The block is substituted: a line to end at follows. -/
def Replaced (setting : Setting) (back : List Setting) : Prop :=
  Begins ENCRYPTION setting.header ∧ (setting.nested ++ back.flatMap Setting.lines).any isNextKey = true

instance (setting : Setting) (back : List Setting) : Decidable (Replaced setting back) :=
  inferInstanceAs (Decidable (_ ∧ _))

/-- A block that is substituted has to end where the next setting begins; one that is
not has to turn TLS on. -/
def BlockMeets (reader : Yaml.Reader) : List Setting → Prop
  | [] => False
  | setting :: back =>
    if Replaced setting back then
      (∀ line ∈ setting.nested, isNextKey line = false) ∧ ∀ next ∈ back.head?, isNextKey next.header = true
    else On reader setting

instance (reader : Yaml.Reader) : (all : List Setting) → Decidable (BlockMeets reader all)
  | [] => inferInstanceAs (Decidable False)
  | setting :: back => inferInstanceAs (Decidable (if Replaced setting back then _ else _))

/-- The settings from the block on. -/
def fromBlock (all : List Setting) : List Setting := all.dropWhile fun setting => setting.key != ENCRYPTION

/-- Each key of the text stands where its substitution finds the whole of it. -/
structure Meets (reader : Yaml.Reader) (s : List Char) : Prop where
  own : Own (preamble reader s) (topLevel reader s)
  values : ∀ e ∈ VALUES, ∀ setting ∈ ofKey e.1 (topLevel reader s), LineMeets reader e.1 e.2 setting
  encryption : BlockMeets reader (fromBlock (topLevel reader s))

/-- Under a line that is substituted nothing looks like a key, or goes on behind a marker. -/
def Under (reader : Yaml.Reader) (all : List Setting) : Prop :=
  ∀ setting ∈ all, ∀ e ∈ VALUES, Begins e.1 setting.header →
    ∀ line ∈ setting.nested, reader.key line = none ∧ (marker line = true → empty line = true)

/-- No line inside a value is taken for one that a substitution is about. -/
structure Regular (reader : Yaml.Reader) (s : List Char) : Prop where
  own : Own (preamble reader s) (topLevel reader s)
  under : Under reader (topLevel reader s)
  block : ∀ setting ∈ fromBlock (topLevel reader s), ∀ line ∈ setting.nested, isNextKey line = false

/-! ## The rewrite, on settings -/

/-- What the substitutions of a line do to a setting. -/
def edit (setting : Setting) : Setting := { setting with header := editLine setting.header }

/-- What the block that is put in says. -/
def tlsEntries (password : Line) : List (Line × Line) :=
  [("enabled".toList, boolean true), ("optional".toList, boolean false),
    ("keystore".toList, "/secrets/tls.p12".toList), ("keystore_password".toList, password),
    ("store_type".toList, "PKCS12".toList), ("require_client_auth".toList, boolean false)]

/-- The block that is put in, as a setting. -/
def tlsSetting (password : Line) : Setting := ⟨ENCRYPTION, ENCRYPTION ++ [':'], block (tlsEntries password)⟩

/-- The block and the settings behind it, as the substitution leaves them. -/
def blocked (password : Line) (setting : Setting) (back : List Setting) : List Setting :=
  if Replaced setting back then
    tlsSetting password :: back.dropWhile fun next => !isNextKey next.header
  else setting :: back

/-- The lines behind a block go on at the first setting that it can end at. -/
def Stops (setting : Setting) (back : List Setting) : Prop :=
  (setting.nested ++ back.flatMap Setting.lines).dropWhile (fun line => !isNextKey line) =
    (back.dropWhile fun next => !isNextKey next.header).flatMap Setting.lines

section Edit

variable {reader : Yaml.Reader} {name value line : Line} {lines : List Line} {setting : Setting}
  {all : List Setting}

theorem word_of_all {word : Line} (hne : word ≠ []) (h : word.all plainWord = true) : Word word :=
  ⟨hne, List.all_eq_true.1 h⟩

theorem begins_ne {name' : Line} (h : Begins name line) (hname : ¬ Begins name (name' ++ [':']))
    (hname' : ¬ Begins name' (name ++ [':'])) : ¬ Begins name' line := fun h' =>
  (List.prefix_or_prefix_of_prefix h h').elim hname hname'

theorem editKey_of_begins (h : Begins name line) : editKey name value line = entry name value :=
  if_pos (List.isPrefixOf_iff_prefix.2 h)

theorem editKey_of_not_begins (h : ¬ Begins name line) : editKey name value line = line :=
  if_neg (mt List.isPrefixOf_iff_prefix.1 h)

theorem editLine_of_begins {e : Line × Line} (he : e ∈ VALUES) (h : Begins e.1 line) :
    editLine line = entry e.1 e.2 := by
  simp only [VALUES, List.mem_cons, List.not_mem_nil, or_false] at he
  rcases he with rfl | rfl
  · rw [editLine, editKey_of_begins h]
    exact editKey_of_not_begins (by decide)
  · have hother : ¬ Begins AUTHENTICATOR line := begins_ne h (by decide) (by decide)
    rw [editLine, editKey_of_not_begins hother, editKey_of_begins h]

theorem editLine_eq_self (h : ∀ e ∈ VALUES, ¬ Begins e.1 line) : editLine line = line := by
  have hauthenticator := h _ (.head _)
  have hauthorizer := h _ (.tail _ (.head _))
  rw [editLine, editKey_of_not_begins hauthenticator, editKey_of_not_begins hauthorizer]

theorem mem_KEYS : ∀ e ∈ VALUES, e.1 ∈ KEYS := by decide

/-- The values are plain words. -/
theorem plain_VALUES : ∀ e ∈ VALUES, Name e.1 ∧ Word e.2 := by
  intro e hmem
  simp only [VALUES, List.mem_cons, List.not_mem_nil, or_false] at hmem
  rcases hmem with rfl | rfl
  · exact ⟨name_AUTHENTICATOR, word_of_all (by decide) (by decide)⟩
  · exact ⟨name_AUTHORIZER, word_of_all (by decide) (by decide)⟩

theorem Own.not_begins {front : List Line} (hown : Own front all) (hmem : setting ∈ all) (hname : name ∈ KEYS)
    (hkey : setting.key ≠ name) : ∀ line ∈ setting.lines, ¬ Begins name line := by
  intro line hline
  rcases List.mem_cons.1 hline with rfl | hline
  · exact mt (hown.header setting hmem name hname) hkey
  · exact hown.nested setting hmem line hline name hname

theorem edit_eq_self (h : ∀ e ∈ VALUES, ¬ Begins e.1 setting.header) :
    edit setting = setting := by
  rw [edit, editLine_eq_self h]

/-- The lines of the settings, substituted. -/
theorem map_editLine {front : List Line} (hown : Own front all) :
    (all.flatMap Setting.lines).map editLine = (all.map edit).flatMap Setting.lines := by
  rw [List.map_flatMap, List.flatMap_map]
  refine List.flatMap_congr fun setting hmem => ?_
  have hnested : setting.nested.map editLine = setting.nested := by
    refine (List.map_congr_left fun line hline => ?_).trans (List.map_id _)
    exact editLine_eq_self fun e he => hown.nested setting hmem line hline e.1 (mem_KEYS e he)
  rw [Setting.lines, List.map_cons, hnested]
  rfl

/-- A setting whose line is substituted is the key with its new value. -/
theorem edit_eq_entry {front : List Line} (hown : Own front all) (hmem : setting ∈ all) {e : Line × Line}
    (he : e ∈ VALUES) (hbegins : Begins e.1 setting.header) :
    edit setting = ⟨e.1, entry e.1 e.2, setting.nested⟩ := by
  have hkey := hown.header setting hmem e.1 (mem_KEYS e he) hbegins
  rw [edit, editLine_of_begins he hbegins, hkey]

/-- Settings that are read one behind the other are read so after the substitutions. -/
theorem laid_edit {front : List Line} (hown : Own front all) (hunder : Under reader all)
    (hlaid : reader.Laid all) : reader.Laid (all.map edit) := by
  have hedited : ∀ setting ∈ all, edit setting = setting ∨
      reader.Reads (edit setting) ∧ reader.goesOn (edit setting) = false := by
    intro setting hmem
    by_cases hbegins : ∃ e ∈ VALUES, Begins e.1 setting.header
    · obtain ⟨e, he, hbegins⟩ := hbegins
      obtain ⟨hname, hword⟩ := plain_VALUES e he
      have hinside := hunder setting hmem e he hbegins
      have hkey : reader.key (entry e.1 e.2) = some e.1 := reader.key_plain hname (by rfl)
      rw [edit_eq_entry hown hmem he hbegins]
      exact .inr ⟨Scanner.reads_of_none hkey fun line hline => (hinside line hline).1,
        reader.goesOn_entry hname hword hinside⟩
    · exact .inl (edit_eq_self fun e he hbegin => hbegins ⟨e, he, hbegin⟩)
  refine ⟨fun setting hmem => ?_, fun setting hmem => ?_⟩
  · obtain ⟨before, hbefore, rfl⟩ := List.mem_map.1 hmem
    rcases hedited before hbefore with hsame | ⟨hread, -⟩
    · rw [hsame]
      exact hlaid.reads before hbefore
    · exact hread
  · rw [← List.map_dropLast] at hmem
    obtain ⟨before, hbefore, rfl⟩ := List.mem_map.1 hmem
    rcases hedited before (List.dropLast_subset _ hbefore) with hsame | ⟨-, hended⟩
    · rw [hsame]
      exact hlaid.ended before hbefore
    · exact hended

end Edit

section Block

variable {reader : Yaml.Reader} {password : Line} {setting : Setting} {front : List Line}
  {pre back all : List Setting}

theorem lines_tlsSetting : (tlsSetting password).lines = tlsLines password := rfl

theorem edit_tlsSetting : edit (tlsSetting password) = tlsSetting password :=
  edit_eq_self (show ∀ e ∈ VALUES, ¬ Begins e.1 (ENCRYPTION ++ [':']) by decide)

/-- A generated password is a plain word. -/
theorem word_of_generated (h : generated password = true) : Word password := by
  rw [generated, Bool.and_eq_true, List.all_eq_true, beq_iff_eq] at h
  refine ⟨fun hnil => ?_, fun c hc => ?_⟩
  · rw [hnil] at h
    exact absurd h.1 (by decide)
  · have hclass := h.2 c hc
    simp only [Bool.or_eq_true, Bool.and_eq_true, decide_eq_true_eq] at hclass
    have halphanum : c.isAlphanum = true := by
      show (c.isUpper || c.isLower || c.isDigit) = true
      rcases hclass with ⟨hfrom, hto⟩ | hdigit
      · have hz : c ≤ 'z' := Char.le_trans hto (by decide)
        have hlower : c.isLower = true :=
          (Bool.and_eq_true _ _).mpr ⟨decide_eq_true hfrom, decide_eq_true hz⟩
        rw [hlower, Bool.or_true, Bool.true_or]
      · rw [hdigit, Bool.or_true]
    simp [plainWord, halphanum]

theorem plain_tlsEntries (hpassword : Word password) : ∀ e ∈ tlsEntries password, Name e.1 ∧ Word e.2 := by
  intro e hmem
  simp only [tlsEntries, List.mem_cons, List.not_mem_nil, or_false] at hmem
  rcases hmem with rfl | rfl | rfl | rfl | rfl | rfl
  case inr.inr.inr.inl =>
    exact ⟨show Name "keystore_password".toList from name_of_all (by decide) (by decide), hpassword⟩
  all_goals exact ⟨name_of_all (by decide) (by decide), word_of_all (by decide) (by decide)⟩

theorem on_tlsSetting (hpassword : Word password) : On reader (tlsSetting password) := by
  have hnodup : ((tlsEntries password).map (·.1)).Nodup :=
    show ((tlsEntries []).map (·.1)).Nodup by decide
  have hplain := plain_tlsEntries hpassword
  exact ⟨reader.flag_block name_ENCRYPTION hplain hnodup (.head _),
    reader.flag_block name_ENCRYPTION hplain hnodup (.tail _ (.head _))⟩

/-- The block that is put in is read as it is. -/
theorem reads_tlsSetting : reader.Reads (tlsSetting password) := by
  refine Scanner.reads_of_none (reader.key_plain name_ENCRYPTION (by rfl)) fun line hmem => ?_
  obtain ⟨e, -, rfl⟩ := List.mem_map.1 hmem
  exact reader.key_indented (by decide)

/-- The block may be put in for the settings up to a later one. -/
theorem laid_tlsSetting (hpassword : Word password) {rest : List Setting}
    (hlaid : reader.Laid (pre ++ setting :: back)) (hrest : rest <:+ back) :
    reader.Laid (pre ++ tlsSetting password :: rest) := by
  have hended : reader.goesOn (tlsSetting password) = false :=
    reader.goesOn_block name_ENCRYPTION (plain_tlsEntries hpassword)
  refine ⟨fun next hmem => ?_, fun next hmem => ?_⟩
  · rcases List.mem_append.1 hmem with hmem | hmem
    · exact hlaid.reads next (List.mem_append_left _ hmem)
    · rcases List.mem_cons.1 hmem with rfl | hmem
      · exact reads_tlsSetting
      · exact hlaid.reads next (List.mem_append_right _ (.tail _ (hrest.subset hmem)))
  · have hlate := hlaid.ended next
    rw [List.dropLast_append_of_ne_nil (List.cons_ne_nil _ _)] at hmem hlate
    rcases List.mem_append.1 hmem with hmem | hmem
    · exact hlate (List.mem_append_left _ hmem)
    · obtain ⟨skipped, rfl⟩ := hrest
      by_cases hnil : rest = []
      · subst hnil
        cases hmem
      · rw [List.dropLast_cons_of_ne_nil hnil] at hmem
        rcases List.mem_cons.1 hmem with rfl | hmem
        · exact hended
        · refine hlate (List.mem_append_right _ ?_)
          rw [List.dropLast_cons_of_ne_nil (by simp [hnil]), List.dropLast_append_of_ne_nil hnil]
          exact .tail _ (List.mem_append_right _ hmem)

theorem dropWhile_suffix_lines (h : ∀ next ∈ back, ∀ line ∈ next.nested, isNextKey line = false) :
    (back.flatMap Setting.lines).dropWhile (fun line => !isNextKey line) =
      (back.dropWhile fun next => !isNextKey next.header).flatMap Setting.lines := by
  induction back with
  | nil => rfl
  | cons next back ih =>
    have hnested : ∀ line ∈ next.nested, (!isNextKey line) = true :=
      fun line hmem => by simp [h next (.head _) line hmem]
    rw [List.flatMap_cons, Setting.lines, List.cons_append]
    cases hheader : isNextKey next.header with
    | true => simp [hheader, Setting.lines]
    | false =>
      rw [List.dropWhile_cons_of_pos (by simp [hheader]), List.dropWhile_append_of_pos hnested,
        List.dropWhile_cons_of_pos (by simp [hheader]), ih fun later hmem => h later (.tail _ hmem)]

/-- A block ends at a header if no line inside a value looks like one. -/
theorem stops_of_nested (hsetting : ∀ line ∈ setting.nested, isNextKey line = false)
    (hback : ∀ next ∈ back, ∀ line ∈ next.nested, isNextKey line = false) : Stops setting back := by
  rw [Stops, List.dropWhile_append_of_pos fun line hmem => by simp [hsetting line hmem],
    dropWhile_suffix_lines hback]

/-- A block ends where the next setting begins, if that can be seen of it. -/
theorem stops_of_head (hsetting : ∀ line ∈ setting.nested, isNextKey line = false)
    (hhead : ∀ next ∈ back.head?, isNextKey next.header = true) :
    Stops setting back ∧ back.dropWhile (fun next => !isNextKey next.header) = back := by
  have hdrop : (back.flatMap Setting.lines).dropWhile (fun line => !isNextKey line) = back.flatMap Setting.lines ∧
      back.dropWhile (fun next => !isNextKey next.header) = back := by
    cases back with
    | nil => exact ⟨rfl, rfl⟩
    | cons next back =>
      have hnext : isNextKey next.header = true := hhead next rfl
      simp [Setting.lines, hnext]
  refine ⟨?_, hdrop.2⟩
  rw [Stops, List.dropWhile_append_of_pos fun line hmem => by simp [hsetting line hmem], hdrop.1, hdrop.2]

/-- The lines of the settings, with the block replaced. -/
theorem replaceBlocks_lines (hown : Own front (pre ++ setting :: back))
    (hpre : ∀ next ∈ pre, next.key ≠ ENCRYPTION) (hback : ∀ next ∈ back, next.key ≠ ENCRYPTION)
    (hstops : Replaced setting back → Stops setting back) :
    replaceBlocks (ENCRYPTION ++ [':']) isNextKey (tlsLines password) false
        (front ++ (pre ++ setting :: back).flatMap Setting.lines) =
      front ++ (pre ++ blocked password setting back).flatMap Setting.lines := by
  have hname : ENCRYPTION ∈ KEYS := by decide
  have hleft : ∀ line ∈ front ++ pre.flatMap Setting.lines, ¬ Begins ENCRYPTION line := by
    intro line hmem
    rcases List.mem_append.1 hmem with hmem | hmem
    · exact hown.front line hmem ENCRYPTION hname
    · obtain ⟨next, hnext, hline⟩ := List.mem_flatMap.1 hmem
      exact hown.not_begins (List.mem_append_left _ hnext) hname (hpre next hnext) line hline
  have hright : ∀ {rest : List Setting}, rest <:+ back → ∀ line ∈ rest.flatMap Setting.lines,
      ¬ Begins ENCRYPTION line := by
    intro rest hrest line hmem
    obtain ⟨next, hnext, hline⟩ := List.mem_flatMap.1 hmem
    have hmem : next ∈ back := hrest.subset hnext
    exact hown.not_begins (List.mem_append_right _ (.tail _ hmem)) hname (hback next hmem) line hline
  rw [List.flatMap_append, List.flatMap_append, List.flatMap_cons, ← List.append_assoc,
    replaceBlocks_append hleft,
    List.append_assoc, Setting.lines, List.cons_append, blocked]
  congr 2
  split
  · next hreplaced =>
    have hrest := List.dropWhile_suffix (l := back) fun next => !isNextKey next.header
    rw [replaceBlocks_block hreplaced.1 hreplaced.2, hstops hreplaced,
      replaceBlocks_eq_self_of_not_begins (hright hrest), List.flatMap_cons, lines_tlsSetting]
  · next hkept =>
    rw [List.flatMap_cons, Setting.lines, List.cons_append]
    by_cases hbegins : Begins ENCRYPTION setting.header
    · have hnone : (setting.nested ++ back.flatMap Setting.lines).any isNextKey = false :=
        Bool.eq_false_iff.2 fun hany => hkept ⟨hbegins, hany⟩
      rw [replaceBlocks_of_no_header hnone, replaceBlocks_eq_self hnone]
    · rw [replaceBlocks_of_not_begins hbegins, replaceBlocks_eq_self_of_not_begins]
      intro line hmem
      rcases List.mem_append.1 hmem with hmem | hmem
      · exact hown.nested setting (by simp) line hmem ENCRYPTION hname
      · exact hright List.suffix_rfl line hmem

theorem mem_blocked {next : Setting} (h : next ∈ pre ++ blocked password setting back) :
    next = tlsSetting password ∨ next ∈ pre ++ setting :: back := by
  rcases List.mem_append.1 h with h | h
  · exact .inr (List.mem_append_left _ h)
  · unfold blocked at h
    split at h
    · rcases List.mem_cons.1 h with h | h
      · exact .inl h
      · have hsuffix := List.dropWhile_suffix (l := back) fun next => !isNextKey next.header
        exact .inr (List.mem_append_right _ (.tail _ (hsuffix.subset h)))
    · exact .inr (List.mem_append_right _ h)

theorem not_begins_indented {name line : Line} (h : name ∈ KEYS) : ¬ Begins name (' ' :: line) := by
  intro hbegins
  simp only [KEYS, List.mem_cons, List.not_mem_nil, or_false] at h
  rcases h with rfl | rfl | rfl
  all_goals exact absurd (List.cons_prefix_cons.1 hbegins).1 (by decide)

theorem own_blocked (hown : Own front (pre ++ setting :: back)) :
    Own front (pre ++ blocked password setting back) where
  front := hown.front
  header next hmem name hname := by
    rcases mem_blocked hmem with rfl | hmem
    · have htls : ∀ name ∈ KEYS, Begins name (ENCRYPTION ++ [':']) → ENCRYPTION = name := by decide
      exact htls name hname
    · exact hown.header next hmem name hname
  nested next hmem line hline name hname := by
    rcases mem_blocked hmem with rfl | hmem
    · obtain ⟨e, -, rfl⟩ := List.mem_map.1 hline
      exact not_begins_indented hname
    · exact hown.nested next hmem line hline name hname

theorem under_blocked (hunder : Under reader (pre ++ setting :: back)) :
    Under reader (pre ++ blocked password setting back) := by
  intro next hmem e he hbegins
  rcases mem_blocked hmem with rfl | hmem
  · have htls : ∀ e ∈ VALUES, ¬ Begins e.1 (ENCRYPTION ++ [':']) := by decide
    exact absurd hbegins (htls e he)
  · exact hunder next hmem e he hbegins

theorem laid_blocked (hpassword : Word password) (hlaid : reader.Laid (pre ++ setting :: back)) :
    reader.Laid (pre ++ blocked password setting back) := by
  unfold blocked
  split
  · exact laid_tlsSetting hpassword hlaid (List.dropWhile_suffix _)
  · exact hlaid

/-- **The settings of the rewritten text**, where only a key's own line begins with its
text: those that were there, edited, with the block put in for what it replaces. -/
theorem settings_rewriteLines (hpassword : Word password) (hfront : ∀ line ∈ front, reader.key line = none)
    (hlaid : reader.Laid (pre ++ setting :: back)) (hown : Own front (pre ++ setting :: back))
    (hunder : Under reader (pre ++ setting :: back)) (hpre : ∀ next ∈ pre, next.key ≠ ENCRYPTION)
    (hback : ∀ next ∈ back, next.key ≠ ENCRYPTION) (hstops : Replaced setting back → Stops setting back) :
    reader.settings (rewriteLines password (front ++ (pre ++ setting :: back).flatMap Setting.lines)) =
      (front, (pre ++ blocked password setting back).map edit) := by
  have hblocked : Own front (pre ++ blocked password setting back) := own_blocked hown
  have hleft : front.map editLine = front := by
    refine (List.map_congr_left fun line hmem => ?_).trans (List.map_id _)
    exact editLine_eq_self fun e he => hown.front line hmem e.1 (mem_KEYS e he)
  rw [rewriteLines_eq, replaceBlocks_lines hown hpre hback hstops, List.map_append, hleft,
    map_editLine hblocked]
  exact Scanner.settings_eq hfront (laid_edit hblocked (under_blocked hunder) (laid_blocked hpassword hlaid))

end Block

/-! ## The settings of the result -/

section Settings

variable {reader : Yaml.Reader} {name : Line} {setting : Setting} {front : List Line}
  {pre back all : List Setting}

theorem ofKey_map_edit : ofKey name (all.map edit) = (ofKey name all).map edit := by
  rw [ofKey, List.filter_map]
  rfl

theorem ofKey_around (hkey : setting.key ≠ name) :
    ofKey name (pre ++ setting :: back) = ofKey name (pre ++ back) := by
  simp [ofKey, List.filter_append, hkey]

theorem others_around (hkey : setting.key ∈ KEYS) : others (pre ++ setting :: back) = others (pre ++ back) := by
  simp [others, List.filter_append, hkey]

theorem ofKey_eq_singleton (hkey : setting.key = name) (hpre : ∀ next ∈ pre, next.key ≠ name)
    (hback : ∀ next ∈ back, next.key ≠ name) : ofKey name (pre ++ setting :: back) = [setting] := by
  have hnil : ∀ {all : List Setting}, (∀ next ∈ all, next.key ≠ name) →
      all.filter (fun next => next.key == name) = [] := fun h =>
    List.filter_eq_nil_iff.2 fun next hmem => by simpa using h next hmem
  rw [ofKey, List.filter_append, List.filter_cons_of_pos (by simpa using hkey), hnil hpre, hnil hback,
    List.nil_append]

/-- The settings, around the one of a key that occurs once. -/
theorem exists_of_once (honce : (ofKey name all).length = 1) : ∃ pre setting back,
    all = pre ++ setting :: back ∧ setting.key = name ∧
      (∀ next ∈ pre, next.key ≠ name) ∧ ∀ next ∈ back, next.key ≠ name := by
  obtain ⟨setting, hsetting⟩ := List.length_eq_one_iff.1 honce
  obtain ⟨pre, back, rfl, hpre, hkey, hback⟩ := List.filter_eq_cons_iff.1 hsetting
  refine ⟨pre, setting, back, rfl, by simpa using hkey, fun next hmem => ?_, fun next hmem => ?_⟩
  · simpa using hpre next hmem
  · simpa using List.filter_eq_nil_iff.1 hback next hmem

theorem length_eq (all : List Setting) : all.length = (ofKey AUTHENTICATOR all).length +
    (ofKey AUTHORIZER all).length + (ofKey ENCRYPTION all).length + (others all).length := by
  induction all with
  | nil => rfl
  | cons setting all ih =>
    have hdistinct : AUTHENTICATOR ≠ AUTHORIZER ∧ AUTHENTICATOR ≠ ENCRYPTION ∧
      AUTHORIZER ≠ ENCRYPTION := by decide
    simp only [ofKey, others, KEYS, List.filter_cons, List.contains_cons, List.contains_nil, Bool.or_false,
      Bool.not_or] at ih ⊢
    by_cases hauthenticator : setting.key = AUTHENTICATOR
    · simp [hauthenticator, hdistinct.1, hdistinct.2.1]
      omega
    by_cases hauthorizer : setting.key = AUTHORIZER
    · simp [hauthorizer, hdistinct.1.symm, hdistinct.2.2]
      omega
    by_cases hencryption : setting.key = ENCRYPTION
    · simp [hencryption, hdistinct.2.1.symm, hdistinct.2.2.symm]
      omega
    · simp [hauthenticator, hauthorizer, hencryption]
      omega

theorem Own.edit_eq_self (hown : Own front all) (hmem : setting ∈ all)
    (hkey : ∀ e ∈ VALUES, setting.key ≠ e.1) :
    edit setting = setting :=
  Configuration.edit_eq_self fun e he => mt (hown.header setting hmem e.1 (mem_KEYS e he)) (hkey e he)

theorem others_map_edit (hown : Own front all) : others (all.map edit) = others all := by
  have hfilter : others (all.map edit) = (others all).map edit := by
    rw [others, List.filter_map]
    rfl
  have hedit : ∀ setting ∈ others all, edit setting = setting := fun setting hmem => by
    rw [others, List.mem_filter] at hmem
    refine hown.edit_eq_self hmem.1 fun e he hkey => ?_
    rw [hkey] at hmem
    simp [mem_KEYS e he] at hmem
  rw [hfilter]
  exact (List.map_congr_left hedit).trans (List.map_id' _)

/-- A line that gets the value gives it if and only if nothing under it adds to it. -/
theorem scalar_edit (hown : Own front all) (hunder : Under reader all) (hmem : setting ∈ all) {e : Line × Line}
    (he : e ∈ VALUES) (hkey : setting.key = e.1) :
    reader.scalar (edit setting) = some e.2 ↔ LineMeets reader e.1 e.2 setting := by
  unfold LineMeets
  split
  · next hbegins =>
    obtain ⟨hname, hword⟩ := plain_VALUES e he
    rw [edit_eq_entry hown hmem he hbegins]
    exact reader.scalar_entry hname hword (hunder setting hmem e he hbegins)
  · next hbegins =>
    have hsame : edit setting = setting := Configuration.edit_eq_self fun e' he' hbegins' => by
      have hother := hown.header setting hmem e'.1 (mem_KEYS e' he') hbegins'
      rw [← hother, hkey] at hbegins'
      exact hbegins hbegins'
    rw [hsame]

/-- The value of a key that occurs once. -/
theorem scalar_map_edit (hown : Own front all) (hunder : Under reader all) {e : Line × Line} (he : e ∈ VALUES)
    (honce : (ofKey e.1 all).length = 1) : ((ofKey e.1 all).map edit).map reader.scalar = [some e.2] ↔
      ∀ setting ∈ ofKey e.1 all, LineMeets reader e.1 e.2 setting := by
  obtain ⟨setting, hsetting⟩ := List.length_eq_one_iff.1 honce
  have hmem : setting ∈ ofKey e.1 all := by simp [hsetting]
  rw [ofKey, List.mem_filter, beq_iff_eq] at hmem
  rw [hsetting, List.forall_mem_singleton, ← scalar_edit hown hunder hmem.1 he hmem.2]
  simp

end Settings

section Main

variable {reader : Yaml.Reader} {s tlsPassword s' : List Char} {setting block : Setting} {front : List Line}
  {pre back all : List Setting}

theorem Own.subset {left : List Setting} (hown : Own front all) (h : left ⊆ all) : Own front left :=
  ⟨hown.front, fun setting hmem => hown.header setting (h hmem),
    fun setting hmem => hown.nested setting (h hmem)⟩

/-- The settings of the result, around the block. -/
theorem topLevel_configure (h : configure s tlsPassword = some s')
    (hown : Own (preamble reader s) (topLevel reader s)) (hunder : Under reader (topLevel reader s))
    (hall : topLevel reader s = pre ++ setting :: back) (hpre : ∀ next ∈ pre, next.key ≠ ENCRYPTION)
    (hback : ∀ next ∈ back, next.key ≠ ENCRYPTION) (hstops : Replaced setting back → Stops setting back) :
    topLevel reader s' = (pre ++ blocked (trim isspace tlsPassword) setting back).map edit := by
  obtain ⟨hgenerated, rfl⟩ := configure_eq_some h
  have hfront : ∀ line ∈ preamble reader s, reader.key line = none := (Scanner.laid_settings _).1
  have hlaid : reader.Laid (topLevel reader s) := (Scanner.laid_settings _).2.1
  have hlines : preamble reader s ++ (topLevel reader s).flatMap Setting.lines = s.splitOn '\n' :=
    (Scanner.laid_settings _).2.2
  rw [hall] at hown hunder hlaid hlines
  rw [topLevel, splitOn_rewrite (newline_not_mem_of_generated hgenerated), ← hlines,
    settings_rewriteLines (word_of_generated hgenerated) hfront hlaid hown hunder hpre hback hstops]

/-- The settings of the result around the block, and what they are then to be. -/
theorem secured_around (honce : Once (topLevel reader s)) (h : configure s tlsPassword = some s')
    (hown : Own (preamble reader s) (topLevel reader s)) (hunder : Under reader (topLevel reader s))
    (hall : topLevel reader s = pre ++ setting :: back) (hkey : setting.key = ENCRYPTION)
    (hpre : ∀ next ∈ pre, next.key ≠ ENCRYPTION) (hback : ∀ next ∈ back, next.key ≠ ENCRYPTION)
    (hblock : block.key = ENCRYPTION) (hedit : edit block = block)
    (htop : topLevel reader s' = (pre ++ block :: back).map edit) :
    Secured reader s tlsPassword s' ↔
      (∀ e ∈ VALUES, ∀ setting ∈ ofKey e.1 (topLevel reader s), LineMeets reader e.1 e.2 setting) ∧
        On reader block := by
  have hname : ∀ e ∈ VALUES, e.1 ≠ ENCRYPTION := by decide
  have hvalues : ∀ e ∈ VALUES, (ofKey e.1 (topLevel reader s')).map reader.scalar = [some e.2] ↔
      ∀ setting ∈ ofKey e.1 (topLevel reader s), LineMeets reader e.1 e.2 setting := by
    intro e he
    have hsame : ofKey e.1 (topLevel reader s') = (ofKey e.1 (topLevel reader s)).map edit := by
      rw [htop, ofKey_map_edit, ofKey_around fun he' => hname e he (he'.symm.trans hblock), hall,
        ofKey_around fun he' => hname e he (he'.symm.trans hkey)]
    rw [hsame]
    exact scalar_map_edit hown hunder he (honce e.1 (mem_KEYS e he))
  have hencryption : ofKey ENCRYPTION (topLevel reader s') = [block] := by
    rw [htop, ofKey_map_edit, ofKey_eq_singleton hblock hpre hback, List.map_singleton, hedit]
  have hothers : others (topLevel reader s') = others (topLevel reader s) := by
    have hrest : Own (preamble reader s) (pre ++ back) := by
      refine hown.subset fun next hmem => ?_
      rw [hall]
      exact ((List.sublist_cons_self setting back).append_left pre).subset hmem
    rw [htop, List.map_append, List.map_cons, hedit, others_around (by rw [hblock]; decide), ← List.map_append,
      others_map_edit hrest, hall, others_around (by rw [hkey]; decide)]
  constructor
  · intro hsecured
    refine ⟨fun e he => (hvalues e he).1 ?_, ?_⟩
    · simp only [VALUES, List.mem_cons, List.not_mem_nil, or_false] at he
      rcases he with rfl | rfl
      · exact hsecured.authenticator
      · exact hsecured.authorizer
    · obtain ⟨setting', hsetting, hon⟩ := hsecured.encryption
      rw [hencryption, List.singleton_inj] at hsetting
      exact hsetting ▸ hon
  · intro ⟨hmeets, hon⟩
    exact ⟨(hvalues _ (.head _)).2 (hmeets _ (.head _)),
      (hvalues _ (.tail _ (.head _))).2 (hmeets _ (.tail _ (.head _))), ⟨block, hencryption, hon⟩, hothers,
      configure_again h⟩

/-- Secured settings are as many as there were: none but the three is changed. -/
theorem Secured.length_topLevel (hsecured : Secured reader s tlsPassword s')
    (honce : Once (topLevel reader s)) :
    (topLevel reader s').length = (topLevel reader s).length := by
  have hauthenticator := congrArg List.length hsecured.authenticator
  have hauthorizer := congrArg List.length hsecured.authorizer
  obtain ⟨block, hblock, -⟩ := hsecured.encryption
  have hencryption := congrArg List.length hblock
  simp only [List.length_map, List.length_singleton] at hauthenticator hauthorizer hencryption
  rw [length_eq (topLevel reader s'), length_eq (topLevel reader s), hsecured.others, hauthenticator,
    hauthorizer,
    hencryption, honce AUTHENTICATOR (by decide), honce AUTHORIZER (by decide), honce ENCRYPTION (by decide)]

theorem head_isNextKey (h : back.dropWhile (fun next => !isNextKey next.header) = back) :
    ∀ next ∈ back.head?, isNextKey next.header = true := by
  cases back with
  | nil => exact nofun
  | cons next back =>
    have hhead := List.head?_dropWhile_not (fun next => !isNextKey next.header) (next :: back)
    rw [h] at hhead
    simpa using hhead

/-- What holds of lines without content holds under the lines that are substituted. -/
theorem Meets.under (h : Meets reader s) : Under reader (topLevel reader s) := by
  intro setting hmem e he hbegins line hline
  have hkey := h.own.header setting hmem e.1 (mem_KEYS e he) hbegins
  have hmeets := h.values e he setting (List.mem_filter.2 ⟨hmem, by simp [hkey]⟩)
  rw [LineMeets, if_pos hbegins] at hmeets
  exact ⟨reader.key_empty (hmeets line hline), fun _ => hmeets line hline⟩

theorem fromBlock_eq (hkey : setting.key = ENCRYPTION) (hpre : ∀ next ∈ pre, next.key ≠ ENCRYPTION) :
    fromBlock (pre ++ setting :: back) = setting :: back := by
  rw [fromBlock, List.dropWhile_append_of_pos fun next hmem => by simpa using hpre next hmem]
  simp [hkey]

theorem Own.edit_encryption (hown : Own front all) (hmem : setting ∈ all) (hkey : setting.key = ENCRYPTION) :
    edit setting = setting := by
  have hname : ∀ e ∈ VALUES, ENCRYPTION ≠ e.1 := by decide
  exact hown.edit_eq_self hmem fun e he hsame => hname e he (hkey.symm.trans hsame)

/-- What the substitutions need is enough, in every text. -/
theorem Meets.secured (hmeets : Meets reader s) (honce : Once (topLevel reader s))
    (h : configure s tlsPassword = some s') : Secured reader s tlsPassword s' := by
  obtain ⟨pre, setting, back, hall, hkey, hpre, hback⟩ := exists_of_once (honce ENCRYPTION (by decide))
  have hencryption := hmeets.encryption
  rw [hall, fromBlock_eq hkey hpre, BlockMeets] at hencryption
  by_cases hreplaced : Replaced setting back
  · rw [if_pos hreplaced] at hencryption
    obtain ⟨hstops, hkept⟩ := stops_of_head hencryption.1 hencryption.2
    have htop := topLevel_configure h hmeets.own hmeets.under hall hpre hback fun _ => hstops
    rw [blocked, if_pos hreplaced, hkept] at htop
    have hon : On reader (tlsSetting _) := on_tlsSetting (word_of_generated (configure_eq_some h).1)
    exact (secured_around honce h hmeets.own hmeets.under hall hkey hpre hback rfl edit_tlsSetting htop).2
      ⟨hmeets.values, hon⟩
  · rw [if_neg hreplaced] at hencryption
    have htop := topLevel_configure h hmeets.own hmeets.under hall hpre hback fun hreplaced' =>
      absurd hreplaced' hreplaced
    rw [blocked, if_neg hreplaced] at htop
    have hself := hmeets.own.edit_encryption (by simp [hall]) hkey
    exact (secured_around honce h hmeets.own hmeets.under hall hkey hpre hback hkey hself htop).2
      ⟨hmeets.values, hencryption⟩

/-- It is needed, where no line inside a value is taken for one of the keys'. -/
theorem Secured.meets (hsecured : Secured reader s tlsPassword s') (honce : Once (topLevel reader s))
    (h : configure s tlsPassword = some s') (hregular : Regular reader s) : Meets reader s := by
  obtain ⟨pre, setting, back, hall, hkey, hpre, hback⟩ := exists_of_once (honce ENCRYPTION (by decide))
  have hfrom : fromBlock (topLevel reader s) = setting :: back := by rw [hall, fromBlock_eq hkey hpre]
  have hnested := hregular.block
  rw [hfrom, List.forall_mem_cons] at hnested
  have htop := topLevel_configure h hregular.own hregular.under hall hpre hback fun _ =>
    stops_of_nested hnested.1 hnested.2
  by_cases hreplaced : Replaced setting back
  · rw [blocked, if_pos hreplaced] at htop
    -- none but the block is replaced, or settings would be missing
    have hkept : back.dropWhile (fun next => !isNextKey next.header) = back := by
      have hlength := hsecured.length_topLevel honce
      rw [htop, hall] at hlength
      simp only [List.length_map, List.length_append, List.length_cons] at hlength
      exact (List.dropWhile_suffix _).eq_of_length (by omega)
    rw [hkept] at htop
    have hparts := (secured_around honce h hregular.own hregular.under hall hkey hpre hback rfl
      edit_tlsSetting htop).1 hsecured
    refine ⟨hregular.own, hparts.1, ?_⟩
    rw [hfrom, BlockMeets, if_pos hreplaced]
    exact ⟨hnested.1, head_isNextKey hkept⟩
  · rw [blocked, if_neg hreplaced] at htop
    have hself := hregular.own.edit_encryption (by simp [hall]) hkey
    have hparts := (secured_around honce h hregular.own hregular.under hall hkey hpre hback hkey hself htop).1
      hsecured
    refine ⟨hregular.own, hparts.1, ?_⟩
    rw [hfrom, BlockMeets, if_neg hreplaced]
    exact hparts.2

/-- **The rewritten text is secured when the settings meet what the substitutions
need**: only a key's own line begins with its text, authenticator and authorizer have
no value on lines of their own, and the block is followed by a key it can end at, or
is not matched and turns TLS on. Where no line inside a value is taken for one that a
substitution is about, it is secured in no other case. -/
theorem secured_iff (honce : Once (topLevel reader s)) (h : configure s tlsPassword = some s') :
    (Meets reader s → Secured reader s tlsPassword s') ∧
      (Regular reader s → Secured reader s tlsPassword s' → Meets reader s) :=
  ⟨fun hmeets => hmeets.secured honce h, fun hregular hsecured => hsecured.meets honce h hregular⟩

/-- A text with all three keys, with what its block says and the settings after it. -/
def sample (block back : List String) : List Char :=
  unlines '\n' ((["authenticator: AllowAllAuthenticator", "authorizer: AllowAllAuthorizer",
    "client_encryption_options:"] ++ block ++ back).map String.toList)

/-- A block that another key follows is replaced. -/
theorem sample_secured :
    let s := sample ["    enabled: false"] ["native_transport_port: 9042"]
    Secured blockStyle s (List.replicate 64 'a') (rewrite (List.replicate 64 'a') s) :=
  (secured_iff (by decide) rfl).1 ⟨⟨by decide, by decide, by decide⟩, by decide, by decide⟩

/-- The last block of a text is left as it is, with TLS off. -/
theorem last_block_left :
    let s := sample ["    enabled: false"] []
    Once (topLevel blockStyle s) ∧
      configure s (List.replicate 64 'a') = some (rewrite (List.replicate 64 'a') s) ∧
        ¬ Secured blockStyle s (List.replicate 64 'a') (rewrite (List.replicate 64 'a') s) := by
  intro s
  refine ⟨by decide, rfl, fun hsecured => ?_⟩
  obtain ⟨block, hblock, hon⟩ := hsecured.encryption
  have hoff : ∀ block ∈ ofKey ENCRYPTION (topLevel blockStyle (rewrite (List.replicate 64 'a') s)),
      ¬ On blockStyle block := by
    rw [topLevel, splitOn_rewrite (by decide)]
    decide
  exact hoff block (hblock ▸ List.mem_singleton_self block) hon

end Main

end Configuration

end CartyxInfra.Cassandra
