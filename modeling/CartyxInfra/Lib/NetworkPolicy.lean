/-
Kubernetes network policies: which connections between pods they admit, and
where paths of admitted connections can lead.

A pod that no policy selects for a direction may connect in that direction with
everything; one that some policy selects, with what the rules of one of them
admit. A connection needs both its ends. `path_leaves` and `path_enters` turn
what single connections do at a boundary into what paths of them do.
-/
import Mathlib.Data.List.Chain

namespace CartyxInfra.Network

variable {Space Key Value : Type} [DecidableEq Space] [DecidableEq Value]

/-- The labels of an object. -/
abbrev Labels (Key Value : Type) := Key → Option Value

/-- `matchLabels`. -/
def selects (selector : List (Key × Value)) (labels : Labels Key Value) : Bool :=
  selector.all fun entry => labels entry.1 == some entry.2

/-- The protocols that a port can be of. -/
inductive Protocol
  | tcp
  | udp
  | sctp
  deriving DecidableEq

/-- A pod, as policies see it. -/
structure Pod (Space Key Value : Type) where
  space : Space
  labels : Labels Key Value

/-- Pods of the policy's own namespace, or of all namespaces with some labels. -/
structure Peer (Key Value : Type) where
  namespaceSelector : Option (List (Key × Value)) := none
  podSelector : List (Key × Value)

/-- Without peers it is a rule for all of them, and without ports one for all of these. -/
structure Rule (Key Value : Type) where
  peers : List (Peer Key Value)
  ports : List (Protocol × Nat)

/-- The rules of a direction, where the policy is one for that direction. -/
structure Policy (Space Key Value : Type) where
  space : Space
  podSelector : List (Key × Value)
  ingress : Option (List (Rule Key Value))
  egress : Option (List (Rule Key Value))

/-- What decides of connections: the namespaces' labels and the policies. -/
structure Cluster (Space Key Value : Type) where
  /-- The labels of a namespace. -/
  spaceLabels : Space → Labels Key Value
  policies : List (Policy Space Key Value)

namespace Cluster

variable (c : Cluster Space Key Value)

/-- A peer of a rule is this pod, for a policy of a namespace. -/
def peer (own : Space) (peer : Peer Key Value) (pod : Pod Space Key Value) : Bool :=
  (match peer.namespaceSelector with
    | none => pod.space == own
    | some selector => selects selector (c.spaceLabels pod.space)) && selects peer.podSelector pod.labels

/-- A rule admits a pod and a port. -/
def rule (own : Space) (rule : Rule Key Value) (pod : Pod Space Key Value) (port : Protocol × Nat) : Bool :=
  (rule.peers.isEmpty || rule.peers.any fun p => c.peer own p pod) &&
    (rule.ports.isEmpty || rule.ports.contains port)

/-- The rules of each policy that isolates a pod in a direction. -/
def isolating (rules : Policy Space Key Value → Option (List (Rule Key Value))) (pod : Pod Space Key Value) :
    List (List (Rule Key Value)) :=
  (c.policies.filter fun p => p.space == pod.space && selects p.podSelector pod.labels).filterMap rules

/-- Whether a pod may connect in a direction: to or from the other pod. -/
def direction (rules : Policy Space Key Value → Option (List (Rule Key Value)))
    (pod other : Pod Space Key Value)
    (port : Protocol × Nat) : Bool :=
  (c.isolating rules pod).isEmpty ||
    (c.isolating rules pod).any fun rs => rs.any fun r => c.rule pod.space r other port

/-- Whether a connection from one pod to a port of another is admitted. -/
def admits (source target : Pod Space Key Value) (port : Protocol × Nat) : Bool :=
  c.direction Policy.egress source target port && c.direction Policy.ingress target source port

/-- One pod can connect to the other on some port. -/
def Connects (source target : Pod Space Key Value) : Prop := ∃ port, c.admits source target port = true

/-- A path of connections, each from the pod that the one before leads to. -/
def Path (path : List (Pod Space Key Value)) : Prop := path.IsChain c.Connects

variable {c} {pod other source target : Pod Space Key Value} {port : Protocol × Nat}

theorem mem_isolating {rules : Policy Space Key Value → Option (List (Rule Key Value))}
    {rs : List (Rule Key Value)} : rs ∈ c.isolating rules pod ↔ ∃ p ∈ c.policies, p.space = pod.space ∧
      selects p.podSelector pod.labels = true ∧ rules p = some rs := by
  simp [isolating, and_assoc]

/-- Where one policy isolates a pod, it alone decides. -/
theorem direction_eq {rules : Policy Space Key Value → Option (List (Rule Key Value))}
    {p : Policy Space Key Value} {rs : List (Rule Key Value)} (hmem : p ∈ c.policies)
    (hspace : p.space = pod.space) (hselects : selects p.podSelector pod.labels = true)
    (hrules : rules p = some rs)
    (honly : ∀ q ∈ c.policies, q.space = pod.space → selects q.podSelector pod.labels = true → q = p) :
    c.direction rules pod other port = rs.any fun r => c.rule pod.space r other port := by
  have hisolating : ∀ rs', rs' ∈ c.isolating rules pod ↔ rs' = rs := by
    intro rs'
    rw [mem_isolating]
    constructor
    · rintro ⟨q, hq, hs, hl, hr⟩
      rw [honly q hq hs hl, hrules] at hr
      exact (Option.some.inj hr).symm
    · rintro rfl
      exact ⟨p, hmem, hspace, hselects, hrules⟩
  have hempty : (c.isolating rules pod).isEmpty = false := by
    rw [List.isEmpty_eq_false_iff]
    exact List.ne_nil_of_mem ((hisolating rs).2 rfl)
  rw [direction, hempty, Bool.false_or, Bool.eq_iff_iff]
  simp only [List.any_eq_true, hisolating, exists_eq_left]

/-- What no policy selects for a direction is open in it. -/
theorem direction_open {rules : Policy Space Key Value → Option (List (Rule Key Value))}
    (h : ∀ q ∈ c.policies, q.space = pod.space → selects q.podSelector pod.labels = true → rules q = none) :
    c.direction rules pod other port = true := by
  have hnone : c.isolating rules pod = [] := by
    refine List.eq_nil_iff_forall_not_mem.2 fun rs hrs => ?_
    obtain ⟨q, hq, hs, hl, hr⟩ := mem_isolating.1 hrs
    rw [h q hq hs hl] at hr
    cases hr
  simp [direction, hnone]

end Cluster

/-! ## Paths across a boundary -/

section

variable {α : Type} {r : α → α → Prop} {inside gate : α → Prop}

/-- Where every step from inside leads inside or to a gate, a path from inside
stays inside or comes to a gate, and only inside until then. -/
theorem path_leaves (h : ∀ a b, inside a → r a b → inside b ∨ gate b) : ∀ {path : List α}, path.IsChain r →
    (∀ a ∈ path.head?, inside a) → (∀ a ∈ path, inside a) ∨ ∃ before g after,
      path = before ++ g :: after ∧ gate g ∧ before ≠ [] ∧ ∀ a ∈ before, inside a
  | [], _, _ => .inl nofun
  | [a], _, hhead => .inl (by simpa using hhead)
  | a :: b :: rest, hpath, hhead => by
    obtain ⟨hstep, hrest⟩ := List.isChain_cons_cons.1 hpath
    have ha : inside a := hhead a rfl
    rcases h a b ha hstep with hb | hb
    · have hnext : ∀ x ∈ (b :: rest).head?, inside x := fun x hx => Option.some.inj hx ▸ hb
      rcases path_leaves h hrest hnext with hall | ⟨before, g, after, hpath, hgate, -, hbefore⟩
      · exact .inl (List.forall_mem_cons.2 ⟨ha, hall⟩)
      · exact .inr ⟨a :: before, g, after, by rw [hpath, List.cons_append], hgate, List.cons_ne_nil _ _,
          List.forall_mem_cons.2 ⟨ha, hbefore⟩⟩
    · exact .inr ⟨[a], b, rest, rfl, hb, List.cons_ne_nil _ _, by simpa using ha⟩

/-- Where every step into the inside comes from inside or from a gate, a path
that ends inside is inside or comes from a gate on it, and only inside from there. -/
theorem path_enters (h : ∀ a b, inside b → r a b → inside a ∨ gate a) : ∀ {path : List α}, path.IsChain r →
    (∀ a ∈ path.getLast?, inside a) → (∀ a ∈ path, inside a) ∨ ∃ before g after,
      path = before ++ g :: after ∧ gate g ∧ after ≠ [] ∧ ∀ a ∈ after, inside a
  | [], _, _ => .inl nofun
  | [a], _, hlast => .inl (by simpa using hlast)
  | a :: b :: rest, hpath, hlast => by
    obtain ⟨hstep, hrest⟩ := List.isChain_cons_cons.1 hpath
    rw [List.getLast?_cons_cons] at hlast
    rcases path_enters h hrest hlast with hall | ⟨before, g, after, hpath, hgate, hne, hafter⟩
    · rcases h a b (hall b (.head _)) hstep with ha | ha
      · exact .inl (List.forall_mem_cons.2 ⟨ha, hall⟩)
      · exact .inr ⟨[], a, b :: rest, rfl, ha, List.cons_ne_nil _ _, hall⟩
    · exact .inr ⟨a :: before, g, after, by rw [hpath, List.cons_append], hgate, hne, hafter⟩

end

end CartyxInfra.Network
