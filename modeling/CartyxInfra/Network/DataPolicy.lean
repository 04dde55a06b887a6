/-
The chart's NetworkPolicy (`networkpolicy.yaml`), and the live check of it
(`network-security.mjs`).

`admitted_iff` says who reaches the databases, `boundary` where paths of
connections get into the data pods and out of them. `verify_client`:
the live check refuses every cluster whose policy is the chart's, as it expects
of clients that they do not reach CQL.
-/
import CartyxInfra.Lib.NetworkPolicy

namespace CartyxInfra.Network

/-- A pod as Kubernetes has it: names and labels are texts. -/
abbrev KubePod := Pod String String String

/-- A cluster of such pods. -/
abbrev KubeCluster := Cluster String String String

/-- The label of the databases' pods, and of those that speak for them. -/
def partOf : String × String := ("app.kubernetes.io/part-of", "cartyx-data")

/-- The label of the pods that may use the databases. -/
def dataClient : String × String := ("cartyx.io/data-client", "true")

/-- Cassandra's port. -/
def cql : Protocol × Nat := (.tcp, 9042)

/-- JanusGraph's port. -/
def gremlin : Protocol × Nat := (.tcp, 8182)

/-- The NetworkPolicy `cartyx-data` of a namespace. -/
def dataPolicy (space : String) : Policy String String String where
  space
  podSelector := [partOf]
  ingress := some
    [⟨[{ podSelector := [partOf] }], [cql, gremlin]⟩,
     -- The application keeps its operational state in CQL.
     ⟨[{ podSelector := [dataClient] }], [gremlin, cql]⟩]
  egress := some
    [⟨[{ podSelector := [partOf] }], [cql, gremlin]⟩,
     ⟨[{ namespaceSelector := some [("kubernetes.io/metadata.name", "kube-system")],
         podSelector := [("k8s-app", "kube-dns")] }], [(.udp, 53), (.tcp, 53)]⟩]

/-- A pod of the databases' namespace that the policy is about. -/
def Data (space : String) (pod : KubePod) : Prop := pod.space = space ∧ pod.labels partOf.1 = some partOf.2

/-- A pod of that namespace that may use the databases. -/
def Client (space : String) (pod : KubePod) : Prop :=
  pod.space = space ∧ pod.labels dataClient.1 = some dataClient.2

/-- The cluster's name service. -/
def Dns (pod : KubePod) : Prop := pod.space = "kube-system" ∧ pod.labels "k8s-app" = some "kube-dns"

/-- The chart is deployed in a namespace, and no other policy there is about its pods. -/
structure Deployed (c : KubeCluster) (space : String) : Prop where
  policy : dataPolicy space ∈ c.policies
  only : ∀ q ∈ c.policies, q.space = space → ∀ pod, Data space pod → selects q.podSelector pod.labels = true →
    q = dataPolicy space
  /-- The control plane labels every namespace with its name. -/
  named : ∀ s, c.spaceLabels s "kubernetes.io/metadata.name" = some s

variable {c : KubeCluster} {space : String} {source target : KubePod} {port : Protocol × Nat}

theorem Data.selected (h : Data space target) : selects (dataPolicy space).podSelector target.labels = true := by
  simp [dataPolicy, selects, h.2]

/-- What may come into a data pod. -/
theorem ingress_iff (h : Deployed c space) (ht : Data space target) :
    c.direction Policy.ingress target source port = true ↔
      (Data space source ∨ Client space source) ∧ (port = cql ∨ port = gremlin) := by
  obtain ⟨rfl, hlabel⟩ := ht
  have ht : Data target.space target := ⟨rfl, hlabel⟩
  rw [Cluster.direction_eq h.policy rfl ht.selected rfl fun q hq hs => h.only q hq hs target ht]
  simp [Cluster.rule, Cluster.peer, selects, Data, Client, or_comm (a := port = gremlin), or_and_right]

/-- What may go out of a data pod. -/
theorem egress_iff (h : Deployed c space) (hs : Data space source) :
    c.direction Policy.egress source target port = true ↔
      (Data space target ∧ (port = cql ∨ port = gremlin)) ∨
        (Dns target ∧ (port = (.udp, 53) ∨ port = (.tcp, 53))) := by
  obtain ⟨rfl, hlabel⟩ := hs
  have hs : Data source.space source := ⟨rfl, hlabel⟩
  rw [Cluster.direction_eq h.policy rfl hs.selected rfl fun q hq hspace => h.only q hq hspace source hs]
  simp [Cluster.rule, Cluster.peer, selects, Data, Dns, h.named]

/-- Who reaches a data pod. -/
theorem admitted_iff (h : Deployed c space) (ht : Data space target) : c.admits source target port = true ↔
    (Data space source ∨ (Client space source ∧ c.direction Policy.egress source target port = true)) ∧
      (port = cql ∨ port = gremlin) := by
  rw [Cluster.admits, Bool.and_eq_true, ingress_iff h ht]
  constructor
  · rintro ⟨hegress, hs | hs, hport⟩
    · exact ⟨.inl hs, hport⟩
    · exact ⟨.inr ⟨hs, hegress⟩, hport⟩
  · rintro ⟨hs | ⟨hs, hegress⟩, hport⟩
    · exact ⟨(egress_iff h hs).2 (.inl ⟨ht, hport⟩), .inl hs, hport⟩
    · exact ⟨hegress, .inr hs, hport⟩

/-! ## Paths of connections -/

/-- A connection to one of the databases' ports. -/
def Reaches (c : KubeCluster) (source target : KubePod) : Prop :=
  c.admits source target cql = true ∨ c.admits source target gremlin = true

theorem Deployed.into (h : Deployed c space) (ht : Data space target) (hc : c.Connects source target) :
    (Data space source ∨ Client space source) ∧ Reaches c source target := by
  obtain ⟨port, hport⟩ := hc
  obtain ⟨hs, hdatabase⟩ := (admitted_iff h ht).1 hport
  refine ⟨hs.imp id And.left, ?_⟩
  rcases hdatabase with rfl | rfl
  · exact .inl hport
  · exact .inr hport

theorem Deployed.out (h : Deployed c space) (hs : Data space source) (hc : c.Connects source target) :
    Data space target ∨ Dns target := by
  obtain ⟨port, hport⟩ := hc
  rw [Cluster.admits, Bool.and_eq_true, egress_iff h hs] at hport
  exact hport.1.imp And.left And.left

/-- Among data pods the databases' ports are all there is. -/
theorem Deployed.reaches (h : Deployed c space) {first : KubePod} {rest : List KubePod}
    (hpath : c.Path (first :: rest)) (hrest : ∀ pod ∈ rest, Data space pod) :
    (first :: rest).IsChain (Reaches c) :=
  List.IsChain.imp_of_mem_tail_imp (fun _ b _ hb hc => (h.into (hrest b hb) hc).2) hpath

/-- **What gets into the data pods, and what gets out of them**: a path of
admitted connections that ends at a data pod is one of data pods, or comes by a
client of the same namespace and from it through data pods, on the databases'
ports; and one that begins at a data pod is one of data pods, or comes through
data pods by the name service. -/
theorem boundary (h : Deployed c space) {path : List KubePod} (hpath : c.Path path) :
    ((∀ target ∈ path.getLast?, Data space target) → (∀ pod ∈ path, Data space pod) ∨
      ∃ before client after, path = before ++ client :: after ∧ Client space client ∧ after ≠ [] ∧
        (∀ pod ∈ after, Data space pod) ∧ (client :: after).IsChain (Reaches c)) ∧
    ((∀ source ∈ path.head?, Data space source) → (∀ pod ∈ path, Data space pod) ∨
      ∃ before dns after, path = before ++ dns :: after ∧ Dns dns ∧ before ≠ [] ∧
        ∀ pod ∈ before, Data space pod) := by
  constructor
  · intro hlast
    have hinto : ∀ a b, Data space b → c.Connects a b → Data space a ∨ Client space a :=
      fun _ _ hb hc => (h.into hb hc).1
    rcases path_enters hinto hpath hlast with
      hall | ⟨before, client, after, rfl, hclient, hne, hafter⟩
    · exact .inl hall
    · have hbehind : c.Path (client :: after) := List.IsChain.right_of_append hpath
      exact .inr ⟨before, client, after, rfl, hclient, hne, hafter, h.reaches hbehind hafter⟩
  · intro hhead
    have hout : ∀ a b, Data space a → c.Connects a b → Data space b ∨ Dns b :=
      fun _ _ ha hc => h.out ha hc
    exact path_leaves hout hpath hhead

/-- A cluster with the chart in one namespace, and nothing else. -/
def sampleCluster (space : String) : KubeCluster where
  spaceLabels := fun s key => if key = "kubernetes.io/metadata.name" then some s else none
  policies := [dataPolicy space]

theorem sampleCluster_deployed (space : String) : Deployed (sampleCluster space) space where
  policy := .head _
  only _ hq _ _ _ _ := List.mem_singleton.1 hq
  named _ := rfl

/-- A pod with some labels. -/
def labelled (space : String) (labels : List (String × String)) : KubePod :=
  ⟨space, fun key => labels.lookup key⟩

/-- A client's path to a data pod, and a data pod's to the name service. -/
theorem boundary_sample :
    (∃ before client after, [labelled "dev" [dataClient], labelled "dev" [partOf]] = before ++ client :: after ∧
      Client "dev" client ∧ after ≠ []) ∧
    ∃ before dns after, [labelled "dev" [partOf], labelled "kube-system" [("k8s-app", "kube-dns")]] =
      before ++ dns :: after ∧ Dns dns ∧ before ≠ [] := by
  have hin : (sampleCluster "dev").Path [labelled "dev" [dataClient], labelled "dev" [partOf]] :=
    List.isChain_pair.2 ⟨cql, by decide⟩
  have hout : (sampleCluster "dev").Path
      [labelled "dev" [partOf], labelled "kube-system" [("k8s-app", "kube-dns")]] :=
    List.isChain_pair.2 ⟨(.udp, 53), by decide⟩
  have hdata : Data "dev" (labelled "dev" [partOf]) := ⟨rfl, rfl⟩
  refine ⟨?_, ?_⟩
  · rcases (boundary (sampleCluster_deployed "dev") hin).1 (by simpa using hdata) with
      hall | ⟨before, client, after, hpath, hclient, hne, -⟩
    · exact absurd (hall _ (.head _)).2 (by decide)
    · exact ⟨before, client, after, hpath, hclient, hne⟩
  · rcases (boundary (sampleCluster_deployed "dev") hout).2 (by simpa using hdata) with
      hall | ⟨before, dns, after, hpath, hdns, hne, -⟩
    · exact absurd (hall _ (.tail _ (.head _))).2 (by decide)
    · exact ⟨before, dns, after, hpath, hdns, hne⟩

/-! ## The live check -/

/-- The environments of the check. -/
inductive Environment
  | dev
  | prod
  deriving DecidableEq

/-- The namespace of an environment. -/
def Environment.name : Environment → String
  | .dev => "dev"
  | .prod => "prod"

/-- `other`: the environment whose namespace the cross-namespace probe runs in. -/
def Environment.other : Environment → Environment
  | .dev => .prod
  | .prod => .dev

/-- A probe: the pod it runs in, and what it is to find. -/
structure Entry where
  name : String
  space : String
  labels : List (String × String)
  /-- Whether it is to reach the graph, and CQL. -/
  expected : Bool × Bool

/-- The probe of a data client, which is to reach the graph and not CQL. -/
def clientEntry (target : Environment) : Entry := ⟨"client", target.name, [dataClient], (true, false)⟩

/-- The probes of an environment. -/
def cases (target : Environment) : List Entry :=
  [⟨"data", target.name, [partOf], (true, true)⟩,
   clientEntry target,
   ⟨"unlabeled", target.name, [], (false, false)⟩,
   ⟨"cross-namespace", target.other.name, [partOf, dataClient], (false, false)⟩]

/-- The pod of an entry's Job, with the labels that the Job's controller adds. -/
def Entry.pod (entry : Entry) (added : Labels String String) : KubePod :=
  ⟨entry.space, fun key => (entry.labels.lookup key).or (added key)⟩

/-- What a Job's probe finds: the databases listen. -/
def Entry.probe (entry : Entry) (c : KubeCluster) (added : Labels String String) (graph cassandra : KubePod) :
    Bool × Bool :=
  (c.admits (entry.pod added) graph gremlin, c.admits (entry.pod added) cassandra cql)

/-- The script, by which Jobs resolve the services' names and what they find: the
first one that fails. -/
def networkSecurity (target : Environment) (resolved : Entry → Bool) (found : Entry → Bool × Bool) :
    Except String Unit :=
  match (cases target).find? fun entry => !(resolved entry && found entry == entry.expected) with
  | some entry => .error entry.name
  | none => .ok ()

variable {t : Environment} {added : Labels String String} {graph cassandra : KubePod}

/-- The labels that a Job's controller adds are none of those the policy is about. -/
structure Added (added : Labels String String) : Prop where
  partOf : added partOf.1 = none
  dataClient : added dataClient.1 = none

theorem Entry.data_iff (h : Added added) {entry : Entry} :
    Data t.name (entry.pod added) ↔ entry.space = t.name ∧ entry.labels.lookup partOf.1 = some partOf.2 := by
  simp [Data, Entry.pod, h.partOf]

theorem Entry.client_iff (h : Added added) {entry : Entry} :
    Client t.name (entry.pod added) ↔
      entry.space = t.name ∧ entry.labels.lookup dataClient.1 = some dataClient.2 := by
  simp [Client, Entry.pod, h.dataClient]

theorem probe_reached (h : Deployed c t.name) (hgraph : Data t.name graph) (hcassandra : Data t.name cassandra)
    {entry : Entry} (hs : Data t.name (entry.pod added) ∨ (Client t.name (entry.pod added) ∧
      ∀ target port, c.direction Policy.egress (entry.pod added) target port = true)) :
    entry.probe c added graph cassandra = (true, true) := by
  have hadmits : ∀ target port, Data t.name target → port = cql ∨ port = gremlin →
      c.admits (entry.pod added) target port = true := by
    intro target port ht hport
    exact (admitted_iff h ht).2 ⟨hs.imp id fun hs => ⟨hs.1, hs.2 target port⟩, hport⟩
  rw [Entry.probe, hadmits graph gremlin hgraph (.inr rfl), hadmits cassandra cql hcassandra (.inl rfl)]

theorem probe_denied (h : Deployed c t.name) (hgraph : Data t.name graph) (hcassandra : Data t.name cassandra)
    {entry : Entry} (hdata : ¬ Data t.name (entry.pod added)) (hclient : ¬ Client t.name (entry.pod added)) :
    entry.probe c added graph cassandra = (false, false) := by
  have hdenies : ∀ target port, Data t.name target → c.admits (entry.pod added) target port = false := by
    intro target port ht
    rw [← Bool.not_eq_true, admitted_iff h ht]
    rintro ⟨hs | hs, -⟩
    · exact hdata hs
    · exact hclient hs.1
  rw [Entry.probe, hdenies graph gremlin hgraph, hdenies cassandra cql hcassandra]

/-- What the probes find where the policy is enforced. -/
theorem probe_eq (h : Deployed c t.name) (hadded : Added added) (hgraph : Data t.name graph)
    (hcassandra : Data t.name cassandra)
    (hopen : ∀ target port, c.direction Policy.egress ((clientEntry t).pod added) target port = true) :
    ∀ entry ∈ cases t, entry.probe c added graph cassandra =
      if entry.name = "client" then (true, true) else entry.expected := by
  intro entry hentry
  simp only [cases, List.mem_cons, List.not_mem_nil, or_false] at hentry
  rcases hentry with rfl | rfl | rfl | rfl
  · exact probe_reached h hgraph hcassandra (.inl ((Entry.data_iff hadded).2 ⟨rfl, rfl⟩))
  · exact probe_reached h hgraph hcassandra (.inr ⟨(Entry.client_iff hadded).2 ⟨rfl, rfl⟩, hopen⟩)
  · refine probe_denied h hgraph hcassandra ?_ ?_
    · rw [Entry.data_iff hadded]
      simp
    · rw [Entry.client_iff hadded]
      simp
  · have hother : t.other.name ≠ t.name := by cases t <;> decide
    refine probe_denied h hgraph hcassandra ?_ ?_
    · rw [Entry.data_iff hadded]
      exact fun hspace => hother hspace.1
    · rw [Entry.client_iff hadded]
      exact fun hspace => hother hspace.1

/-- **The live check refuses every cluster with the chart's policy**: all it
finds is as it expects, but that clients reach CQL, which the policy means
them to; with that expected of them, every cluster passes whose names resolve. -/
theorem verify_client (h : Deployed c t.name) (hadded : Added added) (hgraph : Data t.name graph)
    (hcassandra : Data t.name cassandra)
    (hopen : ∀ target port, c.direction Policy.egress ((clientEntry t).pod added) target port = true) :
    (∀ resolved, networkSecurity t resolved (fun entry => entry.probe c added graph cassandra) ≠ .ok ()) ∧
      networkSecurity t (fun _ => true) (fun entry => entry.probe c added graph cassandra) = .error "client" ∧
      ∀ entry ∈ cases t, entry.probe c added graph cassandra =
        if entry.name = "client" then (true, true) else entry.expected := by
  have hprobe := probe_eq h hadded hgraph hcassandra hopen
  have hclient : (clientEntry t).probe c added graph cassandra = (true, true) :=
    hprobe (clientEntry t) (by simp [cases])
  refine ⟨fun resolved hok => ?_, ?_, hprobe⟩
  · unfold networkSecurity at hok
    split at hok
    · cases hok
    · next hnone =>
      have hpassed := List.find?_eq_none.1 hnone (clientEntry t) (by simp [cases])
      simp only [hclient] at hpassed
      simp [clientEntry] at hpassed
  · have hdata := hprobe ⟨"data", t.name, [partOf], (true, true)⟩ (by simp [cases])
    have hexpected : ((true, true) == (clientEntry t).expected) = false := rfl
    simp [networkSecurity, cases, List.find?, hdata, hclient, hexpected]
    rfl

theorem verify_client_sample : networkSecurity .dev (fun _ => true) (fun entry =>
    entry.probe (sampleCluster "dev") (fun _ => none) (labelled "dev" [partOf]) (labelled "dev" [partOf])) =
      .error "client" := by
  have hdata : Data "dev" (labelled "dev" [partOf]) := ⟨rfl, rfl⟩
  have hopen : ∀ target port, (sampleCluster "dev").direction Policy.egress
      ((clientEntry .dev).pod fun _ => none) target port = true := by
    intro target port
    refine Cluster.direction_open fun q hq _ hselects => ?_
    rw [List.mem_singleton.1 hq] at hselects
    simp [dataPolicy, selects, Entry.pod, clientEntry, dataClient, partOf] at hselects
  exact (verify_client (t := .dev) (sampleCluster_deployed "dev") ⟨rfl, rfl⟩ hdata hdata hopen).2.1

end CartyxInfra.Network
