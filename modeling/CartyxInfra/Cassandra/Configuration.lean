/-
`cassandra-start.sh`: the rewrite of `cassandra.yaml` that turns authentication
and TLS on before the server is started.

A substitution that matches nothing passes silently. The two for a single line
match where the key begins a line, and leave the lines under it; the one for
the block needs a key after it to stop at, and stops at none but a lowercase
one.
-/
import CartyxInfra.Lib.Lines
import CartyxInfra.Lib.Trim
import CartyxInfra.Lib.Yaml

namespace CartyxInfra.Cassandra

open Regex Yaml

namespace Configuration

/-- What `str.strip` takes away. -/
def isspace (c : Char) : Bool :=
  let n := c.toNat
  9 ≤ n && n ≤ 13 || 28 ≤ n && n ≤ 32 || n == 0x85 || n == 0xA0 || n == 0x1680 || 0x2000 ≤ n && n ≤ 0x200A
    || n == 0x2028 || n == 0x2029 || n == 0x202F || n == 0x205F || n == 0x3000

/-- `re.fullmatch('[a-f0-9]{64}', password)`. -/
def generated (password : List Char) : Bool :=
  password.length == 64 && password.all fun c => 'a' ≤ c && c ≤ 'f' || c.isDigit

/-- `^authenticator:.*$`. -/
def authenticatorLine : Pattern Char := .ofLine '\n' "authenticator:".toList (by decide) (restOfLine '\n')

/-- `^authorizer:.*$`. -/
def authorizerLine : Pattern Char := .ofLine '\n' "authorizer:".toList (by decide) (restOfLine '\n')

/-- `^[a-z][a-z_]*:`, behind its anchor. -/
def nextKey : Regex Char := .seq (.one Char.isLower) (.seq (.many plainKey) (lit [':']))

/-- `^client_encryption_options:.*?(?=^[a-z][a-z_]*:)`. -/
def encryptionBlock : Pattern Char :=
  .ofLine '\n' "client_encryption_options:".toList (by decide) (upTo '\n' nextKey)

/-- The lines of the block that is put in. -/
def tlsLines (password : List Char) : List Line :=
  ["client_encryption_options:".toList,
    "    enabled: true".toList,
    "    optional: false".toList,
    "    keystore: /secrets/tls.p12".toList,
    "    keystore_password: ".toList ++ password,
    "    store_type: PKCS12".toList,
    "    require_client_auth: false".toList]

/-- The three substitutions; the text has the newlines that `read_text` makes of all line ends. -/
def rewrite (password : List Char) (s : List Char) : List Char :=
  let s := authenticatorLine.sub "authenticator: PasswordAuthenticator".toList s
  let s := authorizerLine.sub "authorizer: CassandraAuthorizer".toList s
  let tls := unlines '\n' (tlsLines password) ++ ['\n']
  encryptionBlock.sub tls s

/-- The text the server is started with, from the one that is there and `tls-password`;
there is none where the assertion fails. -/
def configure (s tlsPassword : List Char) : Option (List Char) :=
  let password := trim isspace tlsPassword
  if generated password then some (rewrite password s) else none

/-- The key that the first substitution is about. -/
def AUTHENTICATOR : Line := "authenticator".toList

/-- The key of the second one. -/
def AUTHORIZER : Line := "authorizer".toList

/-- The key of the block that is replaced. -/
def ENCRYPTION : Line := "client_encryption_options".toList

theorem name_of_all {name : Line} (hne : name ≠ []) (h : name.all plainKey = true) : Name name :=
  ⟨hne, List.all_eq_true.1 h⟩

theorem name_AUTHENTICATOR : Name AUTHENTICATOR := name_of_all (by decide) (by decide)

theorem name_AUTHORIZER : Name AUTHORIZER := name_of_all (by decide) (by decide)

theorem name_ENCRYPTION : Name ENCRYPTION := name_of_all (by decide) (by decide)

/-! ## Where a block ends -/

/-- A line that a block ends at. -/
def isNextKey (line : Line) : Bool :=
  match line with
  | [] => false
  | c :: rest => c.isLower && (rest.dropWhile plainKey).head? == some ':'

/-- A text that the next key is read from: lowercase letters and underscores, and a colon. -/
def NextKey (taken : List Char) : Prop :=
  ∃ c name, c.isLower = true ∧ (∀ c ∈ name, plainKey c = true) ∧ taken = c :: (name ++ [':'])

theorem reads_nextKey : Reads nextKey NextKey := by
  have h := (reads_one Char.isLower).seq ((reads_many plainKey).seq (reads_lit [':']))
  intro place stop
  rw [nextKey, h place stop]
  constructor
  · rintro ⟨_, ⟨_, _, ⟨c, hc, rfl⟩, ⟨name, _, hname, rfl, rfl⟩, rfl⟩, hbetween⟩
    exact ⟨_, ⟨c, name, hc, hname, rfl⟩, hbetween⟩
  · rintro ⟨_, ⟨c, name, hc, hname, rfl⟩, hbetween⟩
    exact ⟨_, ⟨[c], _, ⟨c, hc, rfl⟩, ⟨name, _, hname, rfl, rfl⟩, rfl⟩, hbetween⟩

theorem isNextKey_iff {line : Line} : isNextKey line = true ↔ ∃ taken, NextKey taken ∧ taken <+: line := by
  have hcolon : plainKey ':' = false := by decide
  cases line with
  | nil => simp [isNextKey, NextKey]
  | cons c rest =>
    simp only [isNextKey, Bool.and_eq_true, beq_iff_eq]
    constructor
    · rintro ⟨hc, hhead⟩
      obtain ⟨tail, htail⟩ := List.head?_eq_some_iff.1 hhead
      refine ⟨_, ⟨c, rest.takeWhile plainKey, hc, fun _ => List.mem_takeWhile_imp, rfl⟩, tail, ?_⟩
      rw [List.cons_append, List.append_assoc, List.singleton_append, ← htail,
        List.takeWhile_append_dropWhile]
    · rintro ⟨_, ⟨c', name, hc, hname, rfl⟩, tail, htail⟩
      rw [List.cons_append, List.cons.injEq] at htail
      obtain ⟨rfl, rfl⟩ := htail
      refine ⟨hc, ?_⟩
      rw [List.append_assoc, List.dropWhile_append_of_pos hname]
      simp [hcolon]

theorem heads_nextKey : Heads '\n' nextKey isNextKey := by
  intro line lines hline
  have hnewline : plainKey '\n' = false := by decide
  rw [reads_nextKey.ends_ne_nil, isNextKey_iff]
  refine exists_congr fun taken => and_congr_right fun hkey => prefix_follow_iff fun hmem => ?_
  obtain ⟨c, name, hc, hname, rfl⟩ := hkey
  simp only [List.mem_cons, List.mem_append, List.not_mem_nil, or_false] at hmem
  rcases hmem with rfl | hmem | hmem
  · cases hc
  · have hplain := hname _ hmem
    rw [hnewline] at hplain
    cases hplain
  · cases hmem

/-! ## The rewrite, on lines -/

/-- The line that a key is given its value on. -/
def editKey (name value : Line) : Line → Line := replaceLine (name ++ [':']) (entry name value)

/-- The two substitutions of a line. -/
def editLine (line : Line) : Line :=
  editKey AUTHORIZER "CassandraAuthorizer".toList
    (editKey AUTHENTICATOR "PasswordAuthenticator".toList line)

/-- The three substitutions, on the lines of the text. -/
def rewriteLines (password : List Char) (lines : List Line) : List Line :=
  replaceBlocks (ENCRYPTION ++ [':']) isNextKey (tlsLines password) false (lines.map editLine)

section Lines

variable {line : Line} {lines : List Line} {password : List Char}

theorem newline_not_mem_key {name : Line} (h : Name name) : '\n' ∉ name ++ [':'] := by
  intro hmem
  rcases List.mem_append.1 hmem with hmem | hmem
  · exact absurd (h.plain '\n' hmem) (by decide)
  · exact absurd hmem (by decide)

theorem newline_not_mem_editKey {name value : Line} (hentry : '\n' ∉ entry name value) (hline : '\n' ∉ line) :
    '\n' ∉ editKey name value line := by
  unfold editKey replaceLine
  split
  · exact hentry
  · exact hline

theorem newline_not_mem_editLine (h : '\n' ∉ line) : '\n' ∉ editLine line :=
  newline_not_mem_editKey (by decide) (newline_not_mem_editKey (by decide) h)

theorem newline_not_mem_tlsLines (hpassword : '\n' ∉ password) : ∀ line ∈ tlsLines password, '\n' ∉ line := by
  intro line hmem
  simp only [tlsLines, List.mem_cons, List.not_mem_nil, or_false] at hmem
  rcases hmem with rfl | rfl | rfl | rfl | rfl | rfl | rfl
  case inr.inr.inr.inr.inl => simpa using hpassword
  all_goals decide

theorem newline_not_mem_rewriteLines (hpassword : '\n' ∉ password) (h : ∀ line ∈ lines, '\n' ∉ line) :
    ∀ line ∈ rewriteLines password lines, '\n' ∉ line := by
  intro line hmem
  rcases mem_replaceBlocks hmem with hmem | hmem
  · exact newline_not_mem_tlsLines hpassword line hmem
  · obtain ⟨before, hbefore, rfl⟩ := List.mem_map.1 hmem
    exact newline_not_mem_editLine (h before hbefore)

theorem tlsLines_ne_nil : tlsLines password ≠ [] := List.cons_ne_nil _ _

theorem sub_editKey {name value : Line} (hname : Name name) (hne : name ++ [':'] ≠ [])
    (h : ∀ line ∈ lines, '\n' ∉ line) :
    (Pattern.ofLine '\n' (name ++ [':']) hne (restOfLine '\n')).sub (entry name value) (unlines '\n' lines) =
      unlines '\n' (lines.map (editKey name value)) := sub_wholeLine (newline_not_mem_key hname) h

/-- The three substitutions, on a text of lines. -/
theorem rewrite_unlines (h : ∀ line ∈ lines, '\n' ∉ line) :
    rewrite password (unlines '\n' lines) = unlines '\n' (rewriteLines password lines) := by
  have hauthenticator : authenticatorLine.sub "authenticator: PasswordAuthenticator".toList (unlines '\n' lines) =
      unlines '\n' (lines.map (editKey AUTHENTICATOR "PasswordAuthenticator".toList)) :=
    sub_editKey name_AUTHENTICATOR (by decide) h
  have hkey : ∀ line ∈ lines.map (editKey AUTHENTICATOR "PasswordAuthenticator".toList), '\n' ∉ line := by
    intro line hmem
    obtain ⟨before, hbefore, rfl⟩ := List.mem_map.1 hmem
    exact newline_not_mem_editKey (by decide) (h before hbefore)
  have hauthorizer : authorizerLine.sub "authorizer: CassandraAuthorizer".toList
      (unlines '\n' (lines.map (editKey AUTHENTICATOR "PasswordAuthenticator".toList))) =
        unlines '\n' (lines.map editLine) := by
    have hsub : authorizerLine.sub (entry AUTHORIZER "CassandraAuthorizer".toList) _ = _ :=
      sub_editKey name_AUTHORIZER (by decide) hkey
    rw [List.map_map] at hsub
    exact hsub
  have hlines : ∀ line ∈ lines.map editLine, '\n' ∉ line := by
    intro line hmem
    obtain ⟨before, hbefore, rfl⟩ := List.mem_map.1 hmem
    exact newline_not_mem_editLine (h before hbefore)
  simp only [rewrite, hauthenticator, hauthorizer]
  exact sub_block heads_nextKey (newline_not_mem_key name_ENCRYPTION) tlsLines_ne_nil hlines

/-- The lines of the rewritten text. -/
theorem splitOn_rewrite (hpassword : '\n' ∉ password) (s : List Char) :
    (rewrite password s).splitOn '\n' = rewriteLines password (s.splitOn '\n') := by
  have hlines : ∀ line ∈ s.splitOn '\n', '\n' ∉ line := fun line => not_mem_of_mem_splitOn
  have hne : rewriteLines password (s.splitOn '\n') ≠ [] := by
    refine mt (replaceBlocks_eq_nil tlsLines_ne_nil).2 ?_
    simp [List.splitOn_ne_nil]
  have hrewrite : rewrite password s = unlines '\n' (rewriteLines password (s.splitOn '\n')) := by
    rw [← rewrite_unlines hlines, unlines_splitOn]
  rw [hrewrite, splitOn_unlines hne (newline_not_mem_rewriteLines hpassword hlines)]

/-! ### Rewriting again -/

/-- A test of lines that a line with a value passes as the one before it does. -/
theorem test_editKey {name value : Line} {test : Line → Bool}
    (h : ∀ rest, test (name ++ [':'] ++ rest) = test (entry name value)) (line : Line) :
    test (editKey name value line) = test line := by
  unfold editKey replaceLine
  split
  · next hbegins =>
    obtain ⟨rest, hrest⟩ := List.isPrefixOf_iff_prefix.1 hbegins
    rw [← hrest, h]
  · rfl

theorem begins_editLine (line : Line) :
    (ENCRYPTION ++ [':']).isPrefixOf (editLine line) = (ENCRYPTION ++ [':']).isPrefixOf line :=
  (test_editKey (fun _ => rfl) _).trans (test_editKey (fun _ => rfl) line)

theorem isNextKey_editLine (line : Line) : isNextKey (editLine line) = isNextKey line :=
  (test_editKey (fun _ => rfl) _).trans (test_editKey (fun _ => rfl) line)

theorem editLine_tlsLines : (tlsLines password).map editLine = tlsLines password := rfl

/-- The block and the lines are replaced in either order. -/
theorem rewriteLines_eq : rewriteLines password lines =
    (replaceBlocks (ENCRYPTION ++ [':']) isNextKey (tlsLines password) false lines).map editLine :=
  replaceBlocks_map begins_editLine isNextKey_editLine editLine_tlsLines lines false

theorem editKey_editKey (name value line : Line) :
    editKey name value (editKey name value line) = editKey name value line := by
  have hself : editKey name value (entry name value) = entry name value := if_pos (by simp [entry])
  rw [editKey, replaceLine.eq_def _ _ line]
  split
  · exact hself
  · next hbegins => exact if_neg hbegins

theorem editLine_editLine (line : Line) : editLine (editLine line) = editLine line := by
  have hother : editKey AUTHENTICATOR "PasswordAuthenticator".toList (editLine line) = editLine line := by
    have hentry : editKey AUTHENTICATOR "PasswordAuthenticator".toList
        (entry AUTHORIZER "CassandraAuthorizer".toList) = entry AUTHORIZER "CassandraAuthorizer".toList :=
          by decide
    rw [editLine, editKey.eq_def AUTHORIZER, replaceLine]
    split
    · exact hentry
    · exact editKey_editKey ..
  rw [editLine, hother, editLine, editKey_editKey]

theorem rewriteLines_rewriteLines :
    rewriteLines password (rewriteLines password lines) = rewriteLines password lines := by
  have hkeys : isNextKey (ENCRYPTION ++ [':']) = true := by decide
  have hedit : (rewriteLines password lines).map editLine = rewriteLines password lines := by
    rw [rewriteLines_eq, List.map_map]
    exact List.map_congr_left fun line _ => editLine_editLine line
  rw [rewriteLines, hedit, rewriteLines]
  exact replaceBlocks_replaceBlocks List.prefix_rfl hkeys (fun line hmem => by
    simp only [List.mem_cons, List.not_mem_nil, or_false] at hmem
    rcases hmem with rfl | rfl | rfl | rfl | rfl | rfl <;> rfl) _

theorem newline_not_mem_of_generated (h : generated password = true) : '\n' ∉ password := by
  intro hmem
  rw [generated, Bool.and_eq_true, List.all_eq_true] at h
  exact absurd (h.2 '\n' hmem) (by decide)

end Lines

section Configure

variable {s tlsPassword s' : List Char}

theorem configure_eq_some (h : configure s tlsPassword = some s') :
    generated (trim isspace tlsPassword) = true ∧ s' = rewrite (trim isspace tlsPassword) s := by
  simp only [configure, Option.ite_none_right_eq_some, Option.some.injEq] at h
  exact ⟨h.1, h.2.symm⟩

/-- **The rewrite changes nothing in its own result**, whatever the text is. -/
theorem configure_again (h : configure s tlsPassword = some s') : configure s' tlsPassword = some s' := by
  obtain ⟨hgenerated, rfl⟩ := configure_eq_some h
  have hpassword := newline_not_mem_of_generated hgenerated
  have hlines : (rewrite (trim isspace tlsPassword) (rewrite (trim isspace tlsPassword) s)).splitOn '\n' =
      (rewrite (trim isspace tlsPassword) s).splitOn '\n' := by
    rw [splitOn_rewrite hpassword (rewrite _ s), splitOn_rewrite hpassword s, rewriteLines_rewriteLines]
  have htext := congrArg (unlines '\n') hlines
  rw [unlines_splitOn, unlines_splitOn] at htext
  simp only [configure, hgenerated, if_true, htext]

end Configure

end Configuration

end CartyxInfra.Cassandra
