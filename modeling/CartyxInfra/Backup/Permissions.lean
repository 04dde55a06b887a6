/-
The roles of `backup-resources.yaml` and `data-backup-rbac.yaml`, and the
requests that the backup's calls and the metrics server make.

`backup_rights`: of all requests that can be made with the backup's service
account, those are allowed that are about what some call of a run is about,
and a few more reads. `metrics_rights`: the metrics server may do its two
reads, and nothing else.
-/
import CartyxInfra.Backup.ClusterApi
import CartyxInfra.Lib.Rbac

namespace CartyxInfra.Backup

open JString Kubernetes

/-! ## Requests -/

/-- What the names of a namespace's objects begin with: `/apis/group/version/namespaces/namespace/kind`. -/
def grouped (group version : String) (space kind : JString) : List JString :=
  [utf16 "apis", utf16 group, utf16 version, utf16 "namespaces", space, kind]

/-- The same of the core group's objects: `/api/v1/namespaces/namespace/kind`. -/
def core (space kind : JString) : List JString := [utf16 "api", utf16 "v1", utf16 "namespaces", space, kind]

/-- `paths(namespace)`. -/
structure Paths where
  lease : JString
  status : JString
  helm : JString
  flux : JString
  graph : JString
  cassandra : JString
  /-- Without the selector of a component. -/
  pods : JString

/-- `paths(namespace)`, as the scripts give them to `kubernetesApi`. -/
def paths (space : Namespace) : Paths where
  lease := path (grouped "coordination.k8s.io" "v1" space.text (utf16 "leases") ++ [utf16 "cartyx-data-backup"])
  status := path (core space.text (utf16 "configmaps") ++ [utf16 "cartyx-data-backup-status"])
  helm := path (grouped "helm.toolkit.fluxcd.io" "v2" space.text (utf16 "helmreleases") ++ [utf16 "cartyx-data"])
  flux := path (grouped "kustomize.toolkit.fluxcd.io" "v1" (utf16 "flux-system") (utf16 "kustomizations") ++
    [utf16 "data-" ++ space.text])
  graph := path (grouped "apps" "v1" space.text (utf16 "deployments") ++ [utf16 "cartyx-data-janusgraph"])
  cassandra := path (grouped "apps" "v1" space.text (utf16 "statefulsets") ++ [utf16 "cartyx-data-cassandra"])
  pods := path (core space.text (utf16 "pods"))

/-- The path of a component's workload. -/
def Paths.workload (p : Paths) : Component → JString
  | .janusgraph => p.graph
  | .cassandra => p.cassandra

/-- The path of a reconciled object. -/
def Paths.release (p : Paths) : Reconciler → JString
  | .helm => p.helm
  | .flux => p.flux

/-- The request that a call makes, where it is one to the API server. -/
def Call.request (space : Namespace) : Call → Option Request
  | .getLease => some ⟨.get, (paths space).lease, [], false⟩
  | .patchLease _ => some ⟨.patch, (paths space).lease, [], false⟩
  -- `?fieldSelector=metadata.name=...`
  | .getPod name => some ⟨.get, (paths space).pods, name.text, false⟩
  | .getWorkload component => some ⟨.get, (paths space).workload component, [], false⟩
  | .getRelease reconciler => some ⟨.get, (paths space).release reconciler, [], false⟩
  | .getPods _ => some ⟨.get, (paths space).pods, [], false⟩
  | .getConfig =>
    some ⟨.get, path (core space.text (utf16 "configmaps") ++ [utf16 "cartyx-data-config"]), [], false⟩
  | .patchScale component _ =>
    some ⟨.patch, (paths space).workload component ++ path [utf16 "scale"], [], false⟩
  | .patchSuspend reconciler _ => some ⟨.patch, (paths space).release reconciler, [], false⟩
  | .patchStatus _ => some ⟨.patch, (paths space).status, [], false⟩
  | .now | .cancelled | .arrival _ | .files | .startTar _ | .exitTar | .getObject _ | .putObject .. |
    .deleteObject _ | .listObjects .. => none

/-- The requests of the metrics server, in the order of its `Promise.all`. -/
def metricsRequests (space : Namespace) : List Request :=
  [⟨.get, (paths space).status, [], false⟩,
   ⟨.get, path (grouped "batch" "v1" space.text (utf16 "cronjobs") ++ [utf16 "cartyx-data-backup"]), [], false⟩]

/-! ## Roles -/

/-- A rule of a Role, as the manifests write it. -/
def rule (apiGroups resources resourceNames verbs : List String) : PolicyRule :=
  ⟨apiGroups.map utf16, resources.map utf16, resourceNames.map utf16, verbs.map utf16⟩

/-- The Role `cartyx-data-backup`. -/
def backupRules : List PolicyRule :=
  [rule ["apps"] ["deployments", "statefulsets"] ["cartyx-data-janusgraph", "cartyx-data-cassandra"] ["get"],
   rule ["apps"] ["deployments/scale", "statefulsets/scale"] ["cartyx-data-janusgraph", "cartyx-data-cassandra"]
     ["get", "patch"],
   rule [""] ["pods"] [] ["list"],
   rule [""] ["configmaps"] ["cartyx-data-config"] ["get"],
   rule [""] ["configmaps"] ["cartyx-data-backup-status"] ["get", "patch"],
   rule ["coordination.k8s.io"] ["leases"] ["cartyx-data-backup"] ["get", "patch"],
   rule ["helm.toolkit.fluxcd.io"] ["helmreleases"] ["cartyx-data"] ["get", "patch"]]

/-- The Role `cartyx-data-metrics`. -/
def metricsRules : List PolicyRule :=
  [rule [""] ["configmaps"] ["cartyx-data-backup-status"] ["get"],
   rule ["batch"] ["cronjobs"] ["cartyx-data-backup"] ["get"]]

/-- The Role in `flux-system`: of `z440` for dev, of `cartyx-prod` for prod. -/
def fluxRule (space : Namespace) : PolicyRule :=
  ⟨[utf16 "kustomize.toolkit.fluxcd.io"], [utf16 "kustomizations"], [utf16 "data-" ++ space.text],
    [utf16 "get", utf16 "patch"]⟩

/-- The ServiceAccount of the backup Job. -/
def backupAccount (space : Namespace) : Account := ⟨space.text, utf16 "cartyx-data-backup"⟩

/-- The ServiceAccount of the metrics server. -/
def metricsAccount (space : Namespace) : Account := ⟨space.text, utf16 "cartyx-data-metrics"⟩

/-- The roles and bindings of an environment's cluster, as the overlays
`data/dev` and `data/prod` put them into their namespaces. -/
def grants (space : Namespace) : Grants where
  roles :=
    [⟨space.text, utf16 "cartyx-data-backup", backupRules⟩,
      ⟨space.text, utf16 "cartyx-data-metrics", metricsRules⟩,
     ⟨utf16 "flux-system", utf16 "cartyx-data-backup-" ++ space.text, [fluxRule space]⟩]
  bindings :=
    [⟨space.text, [backupAccount space], utf16 "cartyx-data-backup"⟩,
     ⟨space.text, [metricsAccount space], utf16 "cartyx-data-metrics"⟩,
     ⟨utf16 "flux-system", [backupAccount space], utf16 "cartyx-data-backup-" ++ space.text⟩]

/-! ## What the requests are about -/

variable {space : Namespace} {a : Attributes} {request : Request}

/-- The workloads of a component: its kind and its name. -/
def Component.kind : Component → JString
  | .janusgraph => utf16 "deployments"
  | .cassandra => utf16 "statefulsets"

/-- The name of a component's workload. -/
def Component.name : Component → JString
  | .janusgraph => utf16 "cartyx-data-janusgraph"
  | .cassandra => utf16 "cartyx-data-cassandra"

/-- What a verb on a reconciled object is about. -/
def Reconciler.about (space : Namespace) (verb : JString) : Reconciler → Attributes
  | .helm => ⟨verb, utf16 "helm.toolkit.fluxcd.io", utf16 "helmreleases", [], space.text, utf16 "cartyx-data"⟩
  | .flux => ⟨verb, utf16 "kustomize.toolkit.fluxcd.io", utf16 "kustomizations", [], utf16 "flux-system",
    utf16 "data-" ++ space.text⟩

/-- What a verb on the Lease is about. -/
def leaseAbout (space : Namespace) (verb : JString) : Attributes :=
  ⟨verb, utf16 "coordination.k8s.io", utf16 "leases", [], space.text, utf16 "cartyx-data-backup"⟩

/-- What a verb on a ConfigMap is about. -/
def configMapAbout (space : Namespace) (verb name : JString) : Attributes :=
  ⟨verb, [], utf16 "configmaps", [], space.text, name⟩

/-- What each call is about. -/
def Call.about (space : Namespace) : Call → Option Attributes
  | .getLease => some (leaseAbout space (utf16 "get"))
  | .patchLease _ => some (leaseAbout space (utf16 "patch"))
  | .getPod name => some ⟨utf16 "list", [], utf16 "pods", [], space.text,
    if isSegment name.text then name.text else []⟩
  | .getWorkload component => some ⟨utf16 "get", utf16 "apps", component.kind, [], space.text, component.name⟩
  | .getRelease reconciler => some (reconciler.about space (utf16 "get"))
  | .getPods _ => some ⟨utf16 "list", [], utf16 "pods", [], space.text, []⟩
  | .getConfig => some (configMapAbout space (utf16 "get") (utf16 "cartyx-data-config"))
  | .patchScale component _ =>
    some ⟨utf16 "patch", utf16 "apps", component.kind, utf16 "scale", space.text, component.name⟩
  | .patchSuspend reconciler _ => some (reconciler.about space (utf16 "patch"))
  | .patchStatus _ => some (configMapAbout space (utf16 "patch") (utf16 "cartyx-data-backup-status"))
  | _ => none

theorem attributes_grouped {group version : String} {place kind name : JString} {parts : List JString}
    (hpath : request.path = path (grouped group version place kind ++ name :: parts))
    (h : ∀ s ∈ grouped group version place kind ++ name :: parts, Segment s) (hkind : kind ∉ keywords) :
    attributes request = some ⟨request.method.verb, utf16 group, kind, parts[0]?.getD [], place, name⟩ := by
  have hname : name ≠ [] := (h name (by simp)).1
  rw [attributes_group hpath h]
  exact special_object hkind hname

theorem attributes_object {place kind name : JString} (hpath : request.path = path (core place kind ++ [name]))
    (h : ∀ s ∈ core place kind ++ [name], Segment s) (hkind : kind ∉ keywords) :
    attributes request = some ⟨request.method.verb, [], kind, [], place, name⟩ := by
  have hname : name ≠ [] := (h name (by simp)).1
  rw [attributes_core hpath h]
  exact special_object hkind hname

theorem attributes_pods (h : ∀ s ∈ core space.text (utf16 "pods"), Segment s) (selected : JString) :
    attributes ⟨.get, (paths space).pods, selected, false⟩ =
      some ⟨utf16 "list", [], utf16 "pods", [], space.text, if isSegment selected then selected else []⟩ := by
  have hpath : (⟨.get, (paths space).pods, selected, false⟩ : Request).path =
      path (core space.text (utf16 "pods")) := rfl
  rw [attributes_core hpath h]
  exact special_list (by decide) rfl rfl

theorem attributes_lease (method : Method) :
    attributes ⟨method, (paths space).lease, [], false⟩ = some (leaseAbout space method.verb) := by
  have h : ∀ s ∈ grouped "coordination.k8s.io" "v1" space.text (utf16 "leases") ++ [utf16 "cartyx-data-backup"],
      Segment s := by cases space <;> decide +kernel
  exact attributes_grouped rfl h (by decide)

theorem attributes_status (method : Method) : attributes ⟨method, (paths space).status, [], false⟩ =
    some (configMapAbout space method.verb (utf16 "cartyx-data-backup-status")) := by
  have h : ∀ s ∈ core space.text (utf16 "configmaps") ++ [utf16 "cartyx-data-backup-status"], Segment s := by
    cases space <;> decide +kernel
  exact attributes_object rfl h (by decide)

theorem attributes_config :
    attributes ⟨.get, path (core space.text (utf16 "configmaps") ++ [utf16 "cartyx-data-config"]), [], false⟩ =
      some (configMapAbout space (utf16 "get") (utf16 "cartyx-data-config")) := by
  have h : ∀ s ∈ core space.text (utf16 "configmaps") ++ [utf16 "cartyx-data-config"], Segment s := by
    cases space <;> decide +kernel
  exact attributes_object rfl h (by decide)

theorem attributes_release (reconciler : Reconciler) (method : Method) :
    attributes ⟨method, (paths space).release reconciler, [], false⟩ =
      some (reconciler.about space method.verb) := by
  cases reconciler with
  | helm =>
    have h : ∀ s ∈ grouped "helm.toolkit.fluxcd.io" "v2" space.text (utf16 "helmreleases") ++ [utf16 "cartyx-data"],
        Segment s := by cases space <;> decide +kernel
    exact attributes_grouped rfl h (by decide)
  | flux =>
    have h : ∀ s ∈ grouped "kustomize.toolkit.fluxcd.io" "v1" (utf16 "flux-system") (utf16 "kustomizations") ++
        [utf16 "data-" ++ space.text], Segment s := by cases space <;> decide +kernel
    exact attributes_grouped rfl h (by decide)

theorem segments_workload (space : Namespace) (component : Component) :
    ∀ s ∈ grouped "apps" "v1" space.text component.kind ++ [component.name, utf16 "scale"], Segment s := by
  cases space <;> cases component <;> decide +kernel

theorem workload_eq (component : Component) : (paths space).workload component =
    path (grouped "apps" "v1" space.text component.kind ++ [component.name]) := by
  cases component <;> rfl

theorem kind_notMem_keywords (component : Component) : component.kind ∉ keywords := by
  cases component <;> decide

theorem attributes_workload (component : Component) (method : Method) :
    attributes ⟨method, (paths space).workload component, [], false⟩ =
      some ⟨method.verb, utf16 "apps", component.kind, [], space.text, component.name⟩ := by
  have h : ∀ s ∈ grouped "apps" "v1" space.text component.kind ++ [component.name], Segment s := by
    intro s hs
    rcases List.mem_append.1 hs with hs | hs
    · exact segments_workload space component s (List.mem_append_left _ hs)
    · rw [List.mem_singleton.1 hs]
      exact segments_workload space component component.name (by simp)
  exact attributes_grouped (workload_eq component) h (kind_notMem_keywords component)

theorem attributes_scale (component : Component) (method : Method) :
    attributes ⟨method, (paths space).workload component ++ path [utf16 "scale"], [], false⟩ =
      some ⟨method.verb, utf16 "apps", component.kind, utf16 "scale", space.text, component.name⟩ := by
  have hpath : (paths space).workload component ++ path [utf16 "scale"] =
      path (grouped "apps" "v1" space.text component.kind ++ [component.name, utf16 "scale"]) := by
    rw [workload_eq]
    exact (path_append (List.append_ne_nil_of_right_ne_nil _ (List.cons_ne_nil _ _))
      (List.cons_ne_nil _ _)).symm
  exact attributes_grouped hpath (segments_workload space component) (kind_notMem_keywords component)

theorem segments_pods : ∀ s ∈ core space.text (utf16 "pods"), Segment s := by cases space <;> decide +kernel

/-- The API server reads off each call's request what the call is about. -/
theorem attributes_request (call : Call) : (call.request space).bind attributes = call.about space := by
  cases call with
  | getLease => exact attributes_lease .get
  | patchLease => exact attributes_lease .patch
  | getPod name => exact attributes_pods segments_pods name.text
  | getWorkload component => exact attributes_workload component .get
  | getRelease reconciler => exact attributes_release reconciler .get
  | getPods => exact attributes_pods segments_pods []
  | getConfig => exact attributes_config
  | patchScale component => exact attributes_scale component .patch
  | patchSuspend reconciler => exact attributes_release reconciler .patch
  | patchStatus => exact attributes_status .patch
  | _ => rfl

/-! ## What is allowed -/

theorem authorize_backup : (grants space).authorize (backupAccount space) a = true ↔
    (a.space = space.text ∧ ∃ rule ∈ backupRules, rule.allows a = true) ∨
      (a.space = utf16 "flux-system" ∧ (fluxRule space).allows a = true) := by
  have hnames : utf16 "cartyx-data-metrics" ≠ utf16 "cartyx-data-backup" := by decide
  have hflux : space.text ≠ utf16 "flux-system" := by cases space <;> decide
  have hother : backupAccount space ≠ metricsAccount space := fun h => hnames (congrArg Account.name h).symm
  simp [Grants.authorize, grants, hnames, hflux, hflux.symm, hother, eq_comm (a := a.space)]

theorem authorize_metrics : (grants space).authorize (metricsAccount space) a = true ↔
    a.space = space.text ∧ ∃ rule ∈ metricsRules, rule.allows a = true := by
  have hnames : utf16 "cartyx-data-metrics" ≠ utf16 "cartyx-data-backup" := by decide
  have hflux : utf16 "flux-system" ≠ space.text := by cases space <;> decide
  have hother : metricsAccount space ≠ backupAccount space := fun h => hnames (congrArg Account.name h)
  simp [Grants.authorize, grants, hnames.symm, hflux, hother, eq_comm (a := a.space)]

/-- Rights that no call needs: to read a scale or the status, and the same on
an object that has one component's kind and the other's name. -/
inductive Spare (space : Namespace) : Attributes → Prop
  | readScale (c : Component) :
    Spare space ⟨utf16 "get", utf16 "apps", c.kind, utf16 "scale", space.text, c.name⟩
  | readStatus : Spare space (configMapAbout space (utf16 "get") (utf16 "cartyx-data-backup-status"))
  | otherKind (c c' : Component) (hne : c ≠ c') (verb subresource : JString)
      (h : (verb, subresource) ∈ [(utf16 "get", []), (utf16 "get", utf16 "scale"), (utf16 "patch", utf16 "scale")]) :
      Spare space ⟨verb, utf16 "apps", c.kind, subresource, space.text, c'.name⟩

theorem kind_of_combined (h : a.combined = utf16 "deployments" ∨ a.combined = utf16 "statefulsets") :
    ∃ c : Component, a.resource = c.kind ∧ a.subresource = [] := by
  rcases h with h | h
  · exact ⟨.janusgraph, combined_eq (by decide) h⟩
  · exact ⟨.cassandra, combined_eq (by decide) h⟩

theorem scale_of_combined (ha : a.WellFormed)
    (h : a.combined = utf16 "deployments/scale" ∨ a.combined = utf16 "statefulsets/scale") :
    ∃ c : Component, a.resource = c.kind ∧ a.subresource = utf16 "scale" := by
  rcases h with h | h
  · have hparts : utf16 "deployments/scale" = utf16 "deployments" ++ slash :: utf16 "scale" := by decide
    exact ⟨.janusgraph, combined_eq_sub ha.resource (by decide) (h.trans hparts)⟩
  · have hparts : utf16 "statefulsets/scale" = utf16 "statefulsets" ++ slash :: utf16 "scale" := by decide
    exact ⟨.cassandra, combined_eq_sub ha.resource (by decide) (h.trans hparts)⟩

theorem name_of_mem {name : JString}
    (h : name = utf16 "cartyx-data-janusgraph" ∨ name = utf16 "cartyx-data-cassandra") :
    ∃ c : Component, name = c.name := by
  rcases h with h | h
  · exact ⟨.janusgraph, h⟩
  · exact ⟨.cassandra, h⟩

theorem backupRules_plain : ∀ rule ∈ backupRules, rule.Plain := by decide +kernel

theorem metricsRules_plain : ∀ rule ∈ metricsRules, rule.Plain := by decide +kernel

theorem fluxRule_plain : (fluxRule space).Plain := by cases space <;> decide +kernel

/-- Whatever the rules for the environment's own namespace allow. -/
theorem allowed_backup (ha : a.WellFormed) (hspace : a.space = space.text)
    (h : ∃ rule ∈ backupRules, rule.allows a = true) : (∃ call, Call.about space call = some a) ∨
      Spare space a := by
  obtain ⟨r, hmem, hallow⟩ := h
  obtain ⟨hverb, hgroup, hcombined, hname⟩ := (PolicyRule.allows_iff (backupRules_plain r hmem)).1 hallow
  simp only [backupRules, List.mem_cons, List.not_mem_nil, or_false] at hmem
  rcases hmem with rfl | rfl | rfl | rfl | rfl | rfl | rfl <;> simp [rule] at hverb hgroup hcombined hname
  · obtain ⟨c, hkind, hsub⟩ := kind_of_combined hcombined
    obtain ⟨c', hname⟩ := name_of_mem hname
    have heq : a = ⟨utf16 "get", utf16 "apps", c.kind, [], space.text, c'.name⟩ :=
      Attributes.ext hverb hgroup hkind hsub hspace hname
    rw [heq]
    by_cases hne : c = c'
    · subst hne
      exact .inl ⟨.getWorkload c, rfl⟩
    · exact .inr (.otherKind c c' hne _ _ (by simp))
  · obtain ⟨c, hkind, hsub⟩ := scale_of_combined ha hcombined
    obtain ⟨c', hname⟩ := name_of_mem hname
    have heq : a = ⟨a.verb, utf16 "apps", c.kind, utf16 "scale", space.text, c'.name⟩ :=
      Attributes.ext rfl hgroup hkind hsub hspace hname
    rw [heq]
    rcases hverb with hverb | hverb
    · rw [hverb]
      by_cases hne : c = c'
      · subst hne
        exact .inr (.readScale c)
      · exact .inr (.otherKind c c' hne _ _ (by simp))
    · rw [hverb]
      by_cases hne : c = c'
      · subst hne
        exact .inl ⟨.patchScale c 0, rfl⟩
      · exact .inr (.otherKind c c' hne _ _ (by simp))
  · obtain ⟨hkind, hsub⟩ := combined_eq (by decide) hcombined
    have heq : a = ⟨utf16 "list", [], utf16 "pods", [], space.text, a.name⟩ :=
      Attributes.ext hverb hgroup hkind hsub hspace rfl
    rw [heq]
    refine .inl ?_
    by_cases hname : a.name = []
    · rw [hname]
      exact ⟨.getPods .cassandra, rfl⟩
    · have hsegment := (ha.listed hverb).resolve_left hname
      exact ⟨.getPod ⟨a.name, hname⟩, by simp [Call.about, hsegment]⟩
  · obtain ⟨hkind, hsub⟩ := combined_eq (by decide) hcombined
    exact .inl ⟨.getConfig, congrArg some (Attributes.ext hverb hgroup hkind hsub hspace hname).symm⟩
  · obtain ⟨hkind, hsub⟩ := combined_eq (by decide) hcombined
    rcases hverb with hverb | hverb
    · have heq : a = configMapAbout space (utf16 "get") (utf16 "cartyx-data-backup-status") :=
        Attributes.ext hverb hgroup hkind hsub hspace hname
      rw [heq]
      exact .inr .readStatus
    · exact .inl ⟨.patchStatus {}, congrArg some (Attributes.ext hverb hgroup hkind hsub hspace hname).symm⟩
  · obtain ⟨hkind, hsub⟩ := combined_eq (by decide) hcombined
    rcases hverb with hverb | hverb
    · exact .inl ⟨.getLease, congrArg some (Attributes.ext hverb hgroup hkind hsub hspace hname).symm⟩
    · exact .inl ⟨.patchLease ⟨none, none, none⟩,
        congrArg some (Attributes.ext hverb hgroup hkind hsub hspace hname).symm⟩
  · obtain ⟨hkind, hsub⟩ := combined_eq (by decide) hcombined
    rcases hverb with hverb | hverb
    · exact .inl ⟨.getRelease .helm, congrArg some (Attributes.ext hverb hgroup hkind hsub hspace hname).symm⟩
    · exact .inl ⟨.patchSuspend .helm true,
        congrArg some (Attributes.ext hverb hgroup hkind hsub hspace hname).symm⟩

/-- Whatever the rule in `flux-system` allows. -/
theorem allowed_flux (hspace : a.space = utf16 "flux-system") (h : (fluxRule space).allows a = true) :
    ∃ call, Call.about space call = some a := by
  obtain ⟨hverb, hgroup, hcombined, hname⟩ := (PolicyRule.allows_iff fluxRule_plain).1 h
  simp [fluxRule] at hverb hgroup hcombined hname
  obtain ⟨hkind, hsub⟩ := combined_eq (by decide) hcombined
  rcases hverb with hverb | hverb
  · exact ⟨.getRelease .flux, congrArg some (Attributes.ext hverb hgroup hkind hsub hspace hname).symm⟩
  · exact ⟨.patchSuspend .flux true, congrArg some (Attributes.ext hverb hgroup hkind hsub hspace hname).symm⟩

theorem authorize_rule {r : PolicyRule} (hspace : a.space = space.text) (hmem : r ∈ backupRules)
    (h : a.verb ∈ r.verbs ∧ a.group ∈ r.apiGroups ∧ a.combined ∈ r.resources ∧
      (r.resourceNames = [] ∨ a.name ∈ r.resourceNames)) :
    (grants space).authorize (backupAccount space) a = true :=
  authorize_backup.2 (.inl ⟨hspace, r, hmem, (PolicyRule.allows_iff (backupRules_plain r hmem)).2 h⟩)

theorem authorize_release (reconciler : Reconciler) {verb : JString}
    (hverb : verb ∈ [utf16 "get", utf16 "patch"]) :
    (grants space).authorize (backupAccount space) (reconciler.about space verb) = true := by
  cases reconciler with
  | helm =>
    refine authorize_rule (r := backupRules[6]) rfl (by simp [backupRules]) ⟨hverb, ?_⟩
    simp [backupRules, rule, Reconciler.about, Attributes.combined]
  | flux =>
    refine authorize_backup.2 (.inr ⟨rfl, (PolicyRule.allows_iff fluxRule_plain).2 ⟨hverb, ?_⟩⟩)
    simp [fluxRule, Reconciler.about, Attributes.combined]

theorem authorize_lease {verb : JString} (hverb : verb ∈ [utf16 "get", utf16 "patch"]) :
    (grants space).authorize (backupAccount space) (leaseAbout space verb) = true := by
  refine authorize_rule (r := backupRules[5]) rfl (by simp [backupRules]) ⟨hverb, ?_⟩
  simp [backupRules, rule, leaseAbout, Attributes.combined]

theorem authorize_status {verb : JString} (hverb : verb ∈ [utf16 "get", utf16 "patch"]) :
    (grants space).authorize (backupAccount space)
      (configMapAbout space verb (utf16 "cartyx-data-backup-status")) = true := by
  refine authorize_rule (r := backupRules[4]) rfl (by simp [backupRules]) ⟨hverb, ?_⟩
  simp [backupRules, rule, configMapAbout, Attributes.combined]
  rfl

theorem authorize_pods (name : JString) : (grants space).authorize (backupAccount space)
    ⟨utf16 "list", [], utf16 "pods", [], space.text, name⟩ = true := by
  refine authorize_rule (r := backupRules[2]) rfl (by simp [backupRules]) ?_
  simp [backupRules, rule, Attributes.combined]
  rfl

/-- An object of one component's kind with one component's name, and its scale. -/
theorem authorize_workload (c c' : Component) {verb subresource : JString}
    (h : (verb, subresource) ∈ [(utf16 "get", []), (utf16 "get", utf16 "scale"), (utf16 "patch", utf16 "scale")]) :
    (grants space).authorize (backupAccount space)
      ⟨verb, utf16 "apps", c.kind, subresource, space.text, c'.name⟩ = true := by
  have hname : c'.name ∈ [utf16 "cartyx-data-janusgraph", utf16 "cartyx-data-cassandra"] := by
    cases c' <;> simp [Component.name]
  have hscale : utf16 "scale" ≠ [] := by decide
  have hcombined : c.kind ++ slash :: utf16 "scale" ∈ [utf16 "deployments/scale", utf16 "statefulsets/scale"] := by
    cases c <;> decide
  have hkind : c.kind ∈ [utf16 "deployments", utf16 "statefulsets"] := by cases c <;> simp [Component.kind]
  simp only [List.mem_cons, Prod.mk.injEq, List.not_mem_nil, or_false] at h
  rcases h with ⟨rfl, rfl⟩ | ⟨rfl, rfl⟩ | ⟨rfl, rfl⟩
  · refine authorize_rule (r := backupRules[0]) rfl (by simp [backupRules]) ⟨.head _, .head _, ?_, .inr hname⟩
    rw [Attributes.combined, if_pos rfl]
    exact hkind
  · refine authorize_rule (r := backupRules[1]) rfl (by simp [backupRules]) ⟨.head _, .head _, ?_, .inr hname⟩
    rw [Attributes.combined, if_neg hscale]
    exact hcombined
  · refine authorize_rule (r := backupRules[1]) rfl (by simp [backupRules])
      ⟨.tail _ (.head _), .head _, ?_, .inr hname⟩
    rw [Attributes.combined, if_neg hscale]
    exact hcombined

theorem authorize_about {call : Call} (h : call.about space = some a) :
    (grants space).authorize (backupAccount space) a = true := by
  cases call with
  | getLease => exact Option.some.inj h ▸ authorize_lease (by simp)
  | patchLease => exact Option.some.inj h ▸ authorize_lease (by simp)
  | getPod => exact Option.some.inj h ▸ authorize_pods _
  | getWorkload component => exact Option.some.inj h ▸ authorize_workload component component (by simp)
  | getRelease reconciler => exact Option.some.inj h ▸ authorize_release reconciler (by simp)
  | getPods => exact Option.some.inj h ▸ authorize_pods _
  | getConfig =>
    refine Option.some.inj h ▸ authorize_rule (r := backupRules[3]) rfl (by simp [backupRules]) ?_
    simp [backupRules, rule, configMapAbout, Attributes.combined]
    rfl
  | patchScale component => exact Option.some.inj h ▸ authorize_workload component component (by simp)
  | patchSuspend reconciler => exact Option.some.inj h ▸ authorize_release reconciler (by simp)
  | patchStatus => exact Option.some.inj h ▸ authorize_status (by simp)
  | now | cancelled | arrival | files | startTar | exitTar | getObject | putObject | deleteObject
  | listObjects => cases h

theorem authorize_spare (h : Spare space a) : (grants space).authorize (backupAccount space) a = true := by
  cases h with
  | readScale c => exact authorize_workload c c (by simp)
  | readStatus => exact authorize_status (by simp)
  | otherKind c c' hne verb subresource h => exact authorize_workload c c' h

/-- **The rights of a backup are what its calls need**: of all requests that can
be made with its service account, those are allowed that are about what some
call of a run is about, and a few reads and misnamed objects. -/
theorem backup_rights (space : Namespace) {request : Request} {a : Attributes}
    (h : attributes request = some a) :
    (grants space).authorize (backupAccount space) a = true ↔
      (∃ call, (Call.request space call).bind attributes = some a) ∨ Spare space a := by
  simp only [attributes_request]
  constructor
  · intro hauthorize
    rcases authorize_backup.1 hauthorize with ⟨hspace, hallow⟩ | ⟨hspace, hallow⟩
    · exact allowed_backup (attributes_wellFormed h) hspace hallow
    · exact .inl (allowed_flux hspace hallow)
  · rintro (⟨call, hcall⟩ | hspare)
    · exact authorize_about hcall
    · exact authorize_spare hspare

/-- `getLease` is one of them, and reading the databases' Secret is not. -/
theorem backup_rights_sample :
    (∃ a, attributes ⟨.get, (paths .dev).lease, [], false⟩ = some a ∧
      (grants .dev).authorize (backupAccount .dev) a = true) ∧
    ∃ a, attributes ⟨.get, path (core (utf16 "dev") (utf16 "secrets") ++ [utf16 "cartyx-data"]), [],
      false⟩ = some a ∧
      ¬ ((∃ call, (Call.request .dev call).bind attributes = some a) ∨ Spare .dev a) := by
  refine ⟨⟨_, attributes_lease .get, ?_⟩, ?_⟩
  · exact (backup_rights .dev (attributes_lease .get)).2 (.inl ⟨.getLease, attributes_request .getLease⟩)
  · have hsegments : ∀ s ∈ core (utf16 "dev") (utf16 "secrets") ++ [utf16 "cartyx-data"], Segment s := by
      decide +kernel
    refine ⟨_, attributes_object rfl hsegments (by decide), fun h => ?_⟩
    have hallowed := (backup_rights .dev (attributes_object rfl hsegments (by decide))).2 h
    revert hallowed
    decide +kernel

theorem attributes_cronJob : attributes ⟨.get, path (grouped "batch" "v1" space.text (utf16 "cronjobs") ++
    [utf16 "cartyx-data-backup"]), [], false⟩ =
      some ⟨utf16 "get", utf16 "batch", utf16 "cronjobs", [], space.text, utf16 "cartyx-data-backup"⟩ := by
  have h : ∀ s ∈ grouped "batch" "v1" space.text (utf16 "cronjobs") ++ [utf16 "cartyx-data-backup"],
      Segment s := by cases space <;> decide +kernel
  exact attributes_grouped rfl h (by decide)

/-- **The metrics server may do its two reads, and nothing else.** -/
theorem metrics_rights (space : Namespace) (a : Attributes) :
    (grants space).authorize (metricsAccount space) a = true ↔
      ∃ request ∈ metricsRequests space, attributes request = some a := by
  simp only [metricsRequests, List.mem_cons, List.not_mem_nil, or_false, exists_eq_or_imp, exists_eq_left,
    attributes_status, attributes_cronJob, Option.some.injEq, authorize_metrics]
  constructor
  · rintro ⟨hspace, r, hmem, hallow⟩
    obtain ⟨hverb, hgroup, hcombined, hname⟩ := (PolicyRule.allows_iff (metricsRules_plain r hmem)).1 hallow
    simp only [metricsRules, List.mem_cons, List.not_mem_nil, or_false] at hmem
    rcases hmem with rfl | rfl <;> simp [rule] at hverb hgroup hcombined hname
    · obtain ⟨hkind, hsub⟩ := combined_eq (by decide) hcombined
      exact .inl (Attributes.ext hverb hgroup hkind hsub hspace hname).symm
    · obtain ⟨hkind, hsub⟩ := combined_eq (by decide) hcombined
      exact .inr (Attributes.ext hverb hgroup hkind hsub hspace hname).symm
  · rintro (rfl | rfl)
    · refine ⟨rfl, metricsRules[0], by simp [metricsRules], (PolicyRule.allows_iff ?_).2 ?_⟩
      · exact metricsRules_plain _ (by simp [metricsRules])
      · simp [metricsRules, rule, configMapAbout, Attributes.combined, Method.verb]
        rfl
    · refine ⟨rfl, metricsRules[1], by simp [metricsRules], (PolicyRule.allows_iff ?_).2 ?_⟩
      · exact metricsRules_plain _ (by simp [metricsRules])
      · simp [metricsRules, rule, Attributes.combined]

end CartyxInfra.Backup
