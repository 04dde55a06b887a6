/-
How a Kubernetes API server decides whether a service account may do what a
request asks for: what the request is about is read off its method and its
path, and roles and their bindings say what may be done.

`splitPath_path` and `attributes_path` say what is read off a path that is
written segment by segment; `attributes_wellFormed` says what holds of
everything that is read off a path.
-/
import CartyxInfra.Lib.JString
import CartyxInfra.Lib.Lines
import CartyxInfra.Lib.Trim

namespace CartyxInfra.Kubernetes

open JString Regex

/-! ## What a request is about -/

/-- The methods of HTTP. -/
inductive Method
  | get
  | head
  | post
  | put
  | patch
  | delete
  deriving DecidableEq

/-- The verb of a request for one object. -/
def Method.verb : Method → JString
  | .get | .head => utf16 "get"
  | .post => utf16 "create"
  | .put => utf16 "update"
  | .patch => utf16 "patch"
  | .delete => utf16 "delete"

/-- A request to the API server. -/
structure Request where
  method : Method
  path : JString
  /-- The name that the field selector of its query requires, if any. -/
  selected : JString := []
  /-- Its query asks for changes. -/
  watch : Bool := false

/-- What is empty is not there. -/
@[ext] structure Attributes where
  verb : JString
  group : JString
  resource : JString
  subresource : JString
  space : JString
  name : JString
  deriving DecidableEq

/-- `/` -/
def slash : UInt16 := 47

/-- A path of segments. -/
def path (segments : List JString) : JString := slash :: unlines slash segments

/-- The segments of a path. -/
def splitPath (path : JString) : List JString :=
  let trimmed := trim (· == slash) path
  if trimmed = [] then [] else trimmed.splitOn slash

/-- A name that can stand in a path. -/
def isSegment (name : JString) : Bool :=
  name != utf16 "." && name != utf16 ".." && !name.contains slash && !name.contains 37

/-- The namespace of a resource, and its segments from the kind on. -/
def inSpace : List JString → JString × List JString
  | first :: space :: rest =>
    if first = utf16 "namespaces" then
      match rest with
      | [] => (space, first :: space :: rest)
      | part :: _ =>
        if part = utf16 "status" ∨ part = utf16 "finalize" then (space, first :: space :: rest) else (space, rest)
    else ([], first :: space :: rest)
  | parts => ([], parts)

/-- A verb and a name, where the verb may be about all objects of a kind. -/
def collective (request : Request) (verb name : JString) : JString × JString :=
  if name = [] then
    if verb = utf16 "get" then
      (if request.watch then utf16 "watch" else utf16 "list",
        if isSegment request.selected then request.selected else [])
    else if verb = utf16 "delete" then (utf16 "deletecollection", [])
    else (verb, name)
  else (verb, name)

/-- What a verb and the segments from behind the version on are about. -/
def about (request : Request) (group verb : JString) (parts : List JString) : Attributes :=
  let place := inSpace parts
  let named := collective request verb (place.2[1]?.getD [])
  { verb := named.1
    group
    resource := place.2[0]?.getD []
    subresource := if verb = utf16 "proxy" then [] else place.2[2]?.getD []
    space := place.1
    name := named.2 }

/-- The same, where the verb may stand in front. -/
def special (request : Request) (group : JString) : List JString → Option Attributes
  | first :: rest =>
    if first = utf16 "proxy" ∨ first = utf16 "watch" then
      if rest = [] then none else some (about request group first rest)
    else some (about request group request.method.verb (first :: rest))
  | [] => none

/-- What a request for a resource is about. -/
def attributes (request : Request) : Option Attributes :=
  match splitPath request.path with
  | first :: second :: third :: rest =>
    if first = utf16 "api" then special request [] (third :: rest)
    else if first = utf16 "apis" then special request second rest
    else none
  | _ => none

/-! ## Roles -/

/-- A rule of a Role. -/
structure PolicyRule where
  apiGroups : List JString
  resources : List JString
  resourceNames : List JString := []
  verbs : List JString

/-- `*` -/
def asterisk : UInt16 := 42

/-- What stands for anything in a rule. -/
def wildcard : JString := [asterisk]

/-- The resource, with what of it is asked for. -/
def Attributes.combined (a : Attributes) : JString :=
  if a.subresource = [] then a.resource else a.resource ++ slash :: a.subresource

/-- The rule covers what a request is about. -/
def PolicyRule.allows (rule : PolicyRule) (a : Attributes) : Bool :=
  (rule.verbs.contains wildcard || rule.verbs.contains a.verb) &&
    (rule.apiGroups.contains wildcard || rule.apiGroups.contains a.group) &&
    (rule.resources.contains wildcard || rule.resources.contains a.combined ||
      (a.subresource != [] && rule.resources.contains (wildcard ++ slash :: a.subresource))) &&
    (rule.resourceNames.isEmpty || rule.resourceNames.contains a.name)

/-- A service account. -/
structure Account where
  space : JString
  name : JString
  deriving DecidableEq

/-- A Role. -/
structure Role where
  space : JString
  name : JString
  rules : List PolicyRule

/-- A RoleBinding. -/
structure RoleBinding where
  space : JString
  subjects : List Account
  /-- The role's name; it is one of the same namespace. -/
  role : JString

/-- The Roles of a cluster, and who has them. -/
structure Grants where
  roles : List Role
  bindings : List RoleBinding

/-- Whether an account may do what a request is about. -/
def Grants.authorize (grants : Grants) (account : Account) (a : Attributes) : Bool :=
  grants.bindings.any fun binding =>
    binding.space == a.space && binding.subjects.contains account &&
      grants.roles.any fun role =>
        role.space == binding.space && role.name == binding.role && role.rules.any fun rule => rule.allows a

/-! ## Paths that are written segment by segment -/

variable {segments : List JString} {request : Request}

/-- A text that stands between two slashes. -/
def Segment (text : JString) : Prop := text ≠ [] ∧ slash ∉ text

instance : DecidablePred Segment := fun text => inferInstanceAs (Decidable (text ≠ [] ∧ slash ∉ text))

theorem head?_unlines {segment : JString} (h : Segment segment) (rest : List JString) :
    ∃ c text, unlines slash (segment :: rest) = c :: text ∧ c ≠ slash := by
  obtain ⟨c, text, rfl⟩ := List.exists_cons_of_ne_nil h.1
  refine ⟨c, text ++ follow slash rest, unlines_cons, ?_⟩
  intro hc
  exact h.2 (hc ▸ List.mem_cons_self ..)

theorem getLast_unlines : ∀ {segments : List JString}, segments ≠ [] → (∀ s ∈ segments, Segment s) →
    ∃ text c, unlines slash segments = text ++ [c] ∧ c ≠ slash
  | [segment], _, h => by
    obtain ⟨hne, hslash⟩ := h segment (by simp)
    refine ⟨segment.dropLast, segment.getLast hne, ?_, ?_⟩
    · rw [unlines_cons, follow_nil, List.append_nil, List.dropLast_append_getLast]
    · intro hc
      exact hslash (hc ▸ List.getLast_mem hne)
  | segment :: next :: rest, _, h => by
    obtain ⟨text, c, htext, hc⟩ :=
      getLast_unlines (List.cons_ne_nil next rest) fun s hs => h s (List.mem_cons_of_mem _ hs)
    refine ⟨segment ++ slash :: text, c, ?_, hc⟩
    rw [unlines_cons_of_ne_nil (List.cons_ne_nil next rest), htext]
    simp

theorem splitPath_path (hne : segments ≠ []) (h : ∀ s ∈ segments, Segment s) :
    splitPath (path segments) = segments := by
  have hpadded : Padded (· == slash) (unlines slash segments) (path segments) :=
    ⟨[slash], [], by simp, by simp, by simp [path]⟩
  have htrim : trim (· == slash) (path segments) = unlines slash segments := by
    rw [hpadded.trim_eq, trim]
    obtain ⟨segment, rest, rfl⟩ := List.exists_cons_of_ne_nil hne
    obtain ⟨c, text, hhead, hc⟩ := head?_unlines (h segment (by simp)) rest
    have hdrop : (unlines slash (segment :: rest)).dropWhile (· == slash) = unlines slash (segment :: rest) := by
      rw [hhead, List.dropWhile_cons_of_neg (by simpa using hc)]
    obtain ⟨text', c', hlast, hc'⟩ := getLast_unlines hne h
    rw [hdrop, hlast, List.rdropWhile_concat_neg _ _ _ (by simpa using hc')]
  have hnonempty : unlines slash segments ≠ [] := by
    obtain ⟨text, c, hlast, -⟩ := getLast_unlines hne h
    simp [hlast]
  rw [splitPath, htrim, if_neg hnonempty, splitOn_unlines hne fun s hs => (h s hs).2]

theorem path_append {left : List JString} (hne : segments ≠ []) (hleft : left ≠ []) :
    path (segments ++ left) = path segments ++ path left := by
  rw [path, unlines_append hleft hne]
  rfl

/-- The words of a path that are not just passed on. -/
def keywords : List JString := ["namespaces", "proxy", "watch", "status", "finalize"].map utf16

/-- An object of a namespace, or a part of it. -/
theorem special_object {group space kind name : JString} {parts : List JString} (hkind : kind ∉ keywords)
    (hname : name ≠ []) : special request group (utf16 "namespaces" :: space :: kind :: name :: parts) =
      some ⟨request.method.verb, group, kind, parts[0]?.getD [], space, name⟩ := by
  have hproxy : ¬ (utf16 "namespaces" = utf16 "proxy" ∨ utf16 "namespaces" = utf16 "watch") := by decide
  have hsub : ¬ (kind = utf16 "status" ∨ kind = utf16 "finalize") := by
    intro h
    rcases h with rfl | rfl <;> exact hkind (by simp [keywords])
  have hverb : request.method.verb ≠ utf16 "proxy" := by cases request.method <;> decide
  rw [special, if_neg hproxy, about, inSpace, if_pos rfl, if_neg hsub]
  simp [collective, hname, hverb]

/-- All objects of a kind in a namespace, or those that a selector names. -/
theorem special_list {group space kind : JString} (hkind : kind ∉ keywords) (hmethod : request.method = .get)
    (hwatch : request.watch = false) : special request group [utf16 "namespaces", space, kind] =
      some ⟨utf16 "list", group, kind, [], space,
        if isSegment request.selected then request.selected else []⟩ := by
  have hproxy : ¬ (utf16 "namespaces" = utf16 "proxy" ∨ utf16 "namespaces" = utf16 "watch") := by decide
  have hsub : ¬ (kind = utf16 "status" ∨ kind = utf16 "finalize") := by
    intro h
    rcases h with rfl | rfl <;> exact hkind (by simp [keywords])
  rw [special, if_neg hproxy, about, inSpace, if_pos rfl, if_neg hsub]
  simp [collective, hmethod, hwatch, Method.verb]

theorem attributes_core {version part : JString} {parts : List JString}
    (hpath : request.path = path (utf16 "api" :: version :: part :: parts))
    (h : ∀ s ∈ utf16 "api" :: version :: part :: parts, Segment s) :
    attributes request = special request [] (part :: parts) := by
  rw [attributes, hpath, splitPath_path (by simp) h]
  dsimp only
  rw [if_pos rfl]

theorem attributes_group {group version : JString} {parts : List JString}
    (hpath : request.path = path (utf16 "apis" :: group :: version :: parts))
    (h : ∀ s ∈ utf16 "apis" :: group :: version :: parts, Segment s) :
    attributes request = special request group parts := by
  have hne : utf16 "apis" ≠ utf16 "api" := by decide
  rw [attributes, hpath, splitPath_path (by simp) h]
  dsimp only
  rw [if_neg hne, if_pos rfl]

/-! ## What holds of everything that is read off a path -/

theorem segment_of_mem_splitPath {path segment : JString} (h : segment ∈ splitPath path) : slash ∉ segment := by
  unfold splitPath at h
  dsimp only at h
  split at h
  · cases h
  · exact not_mem_of_mem_splitOn h

/-- What the server reads of a request. -/
structure Attributes.WellFormed (a : Attributes) : Prop where
  resource : slash ∉ a.resource
  /-- A list names what can stand in a path. -/
  listed : a.verb = utf16 "list" → a.name = [] ∨ isSegment a.name = true

theorem inSpace_parts (parts : List JString) : ∀ part ∈ (inSpace parts).2, part ∈ parts := by
  intro part hpart
  unfold inSpace at hpart
  split at hpart
  · split at hpart
    · split at hpart
      · exact hpart
      · split at hpart
        · exact hpart
        · exact List.mem_cons_of_mem _ (List.mem_cons_of_mem _ hpart)
    · exact hpart
  · exact hpart

theorem collective_listed {verb name : JString} (hverb : verb ≠ utf16 "list")
    (h : (collective request verb name).1 = utf16 "list") :
    (collective request verb name).2 = [] ∨ isSegment (collective request verb name).2 = true := by
  unfold collective at h ⊢
  split
  · next hname =>
    rw [if_pos hname] at h
    split
    · cases hselected : isSegment request.selected with
      | true => exact .inr (by simpa using hselected)
      | false => exact .inl (by simp)
    · next hget =>
      rw [if_neg hget] at h
      split
      · exact .inl rfl
      · next hdelete =>
        rw [if_neg hdelete] at h
        exact absurd h hverb
  · next hname =>
    rw [if_neg hname] at h
    exact absurd h hverb

theorem about_wellFormed {group verb : JString} {parts : List JString} (hparts : ∀ part ∈ parts, slash ∉ part)
    (hverb : verb ≠ utf16 "list") : (about request group verb parts).WellFormed := by
  refine ⟨?_, collective_listed hverb⟩
  show slash ∉ (inSpace parts).2[0]?.getD []
  cases hfirst : (inSpace parts).2[0]? with
  | none => exact List.not_mem_nil
  | some part => exact hparts part (inSpace_parts parts part (List.mem_of_getElem? hfirst))

theorem Method.verb_ne_list (method : Method) : method.verb ≠ utf16 "list" := by
  cases method <;> decide

theorem special_wellFormed {group : JString} {parts : List JString} {a : Attributes}
    (hparts : ∀ part ∈ parts, slash ∉ part) (h : special request group parts = some a) : a.WellFormed := by
  cases parts with
  | nil => cases h
  | cons first rest =>
    rw [special] at h
    split at h
    · next hfirst =>
      split at h
      · cases h
      · obtain rfl := Option.some.inj h
        refine about_wellFormed (fun part hpart => hparts part (List.mem_cons_of_mem _ hpart)) ?_
        rcases hfirst with rfl | rfl <;> decide
    · obtain rfl := Option.some.inj h
      exact about_wellFormed hparts request.method.verb_ne_list

theorem attributes_wellFormed {a : Attributes} (h : attributes request = some a) : a.WellFormed := by
  have hsegments : ∀ segment ∈ splitPath request.path, slash ∉ segment := fun _ => segment_of_mem_splitPath
  unfold attributes at h
  split at h
  · next first second third rest hsplit =>
    rw [hsplit] at hsegments
    split at h
    · exact special_wellFormed (fun part hpart => hsegments part (by simp [List.mem_cons.1 hpart])) h
    · split at h
      · exact special_wellFormed (fun part hpart => hsegments part (by simp [hpart])) h
      · cases h
  · cases h

theorem append_slash_inj {left left' right right' : JString} (hl : slash ∉ left) (hl' : slash ∉ left')
    (h : left ++ slash :: right = left' ++ slash :: right') : left = left' ∧ right = right' := by
  induction left generalizing left' with
  | nil =>
    cases left' with
    | nil => exact ⟨rfl, (List.cons.inj h).2⟩
    | cons c left' =>
      have hc : slash = c := (List.cons.inj h).1
      exact absurd (hc ▸ List.mem_cons_self ..) hl'
  | cons c left ih =>
    cases left' with
    | nil =>
      have hc : c = slash := (List.cons.inj h).1
      exact absurd (hc ▸ List.mem_cons_self ..) hl
    | cons c' left' =>
      obtain ⟨rfl, htail⟩ := List.cons.inj h
      simp only [List.mem_cons, not_or] at hl hl'
      obtain ⟨rfl, rfl⟩ := ih hl.2 hl'.2 htail
      exact ⟨rfl, rfl⟩

theorem combined_eq {a : Attributes} {resource : JString} (hr : slash ∉ resource) (h : a.combined = resource) :
    a.resource = resource ∧ a.subresource = [] := by
  unfold Attributes.combined at h
  split at h
  · next hsub => exact ⟨h, hsub⟩
  · rw [← h] at hr
    exact absurd (by simp) hr

theorem combined_eq_sub {a : Attributes} {resource subresource : JString} (ha : slash ∉ a.resource)
    (hr : slash ∉ resource) (h : a.combined = resource ++ slash :: subresource) :
    a.resource = resource ∧ a.subresource = subresource := by
  unfold Attributes.combined at h
  split at h
  · rw [h] at ha
    exact absurd (by simp) ha
  · exact append_slash_inj ha hr h

/-! ## Rules without wildcards -/

/-- No asterisk in a rule. -/
def PolicyRule.Plain (rule : PolicyRule) : Prop :=
  ∀ text ∈ rule.verbs ++ rule.apiGroups ++ rule.resources, asterisk ∉ text

instance : DecidablePred PolicyRule.Plain :=
  fun rule => inferInstanceAs (Decidable (∀ text ∈ rule.verbs ++ rule.apiGroups ++ rule.resources, asterisk ∉ text))

theorem PolicyRule.allows_iff {rule : PolicyRule} (h : rule.Plain) {a : Attributes} : rule.allows a = true ↔
    a.verb ∈ rule.verbs ∧ a.group ∈ rule.apiGroups ∧ a.combined ∈ rule.resources ∧
      (rule.resourceNames = [] ∨ a.name ∈ rule.resourceNames) := by
  have hstar : ∀ text : JString, asterisk ∈ text →
      text ∉ rule.verbs ∧ text ∉ rule.apiGroups ∧ text ∉ rule.resources := by
    intro text htext
    refine ⟨fun hv => h text ?_ htext, fun hg => h text ?_ htext, fun hr => h text ?_ htext⟩
    · simp [hv]
    · simp [hg]
    · simp [hr]
  obtain ⟨hverbs, hgroups, hresources⟩ := hstar wildcard (by simp [wildcard])
  obtain ⟨-, -, hsub⟩ := hstar (wildcard ++ slash :: a.subresource) (by simp [wildcard])
  simp [PolicyRule.allows, hverbs, hgroups, hresources, hsub, and_assoc]

end CartyxInfra.Kubernetes
