/-
When a restore goes on, against when it should: `restoreGuard` holds the
archive to the checkout's `values.yaml` and to those of its files that the
archive has too, while the release it goes on to install is of the overlaid
values and of all files.

`restore_exact_iff`: the guard is exact on an input unless what it does not
compare differs there.
-/
import CartyxInfra.Restore.RestoreCluster

namespace CartyxInfra.Restore

open JString Backup

variable {tools : Tools} {input : Input}

/-- The script creates the destination namespace. -/
def Reaches (tools : Tools) (input : Input) : Prop := restoreGuard tools input = .ok ()

/-- What the archive captured is what the checkout will deploy. -/
structure Compatible (tools : Tools) (input : Input) (inner : Parsed) (config : Files) : Prop where
  isInner : input.inner tools = some inner
  isConfig : input.config tools = some config
  cassandraImage : inner.cassandraImage = some (input.checkout.values input.environment).cassandraImage
  janusgraphImage : inner.janusgraphImage = some (input.checkout.values input.environment).janusgraphImage
  graphKeyspace : inner.graphKeyspace = some (input.checkout.values input.environment).graphKeyspace
  stateKeyspace : inner.stateKeyspace = some (input.checkout.values input.environment).stateKeyspace
  files : ∀ name, config.get name = input.checkout.files.get name

/-- `JSON.stringify(manifest)` for the archive, parsed. -/
def parsedManifest (manifest : Manifest) : Parsed where
  format := some Manifest.format
  environment := some manifest.environment.text
  id := some manifest.id
  key := none
  sha256 := none
  cassandraImage := some manifest.cassandraImage
  janusgraphImage := some manifest.janusgraphImage
  graphKeyspace := manifest.graphKeyspace
  stateKeyspace := manifest.stateKeyspace

/-- `JSON.stringify(manifest)` for the bucket, parsed. -/
def parsedCompletion (completion : Completion) : Parsed :=
  { parsedManifest completion.manifest with key := some completion.key, sha256 := some completion.sha256 }

/-- The input's archive is intact, and is what a backup run has captured of a
release of this very checkout, with all credentials. -/
structure Captured (tools : Tools) (input : Input) (setup : Setup) (owner : PodName)
    (completion : Completion) (archive : Bytes) : Prop where
  space : setup.space = input.environment
  manifestKey : input.manifestKey = setup.Key owner ++ utf16 ".json"
  key : completion.key = setup.Key owner
  published : ∃ text, input.object input.manifestKey = some text ∧
    tools.parseManifest text = some (parsedCompletion completion)
  stored : input.object completion.key = some archive
  sha256 : completion.sha256 = tools.sha256 archive
  inner : ∃ text, tools.member archive (utf16 "manifest.json") = some text ∧
    tools.parseManifest text = some (parsedManifest completion.manifest)
  config : ∃ text config, tools.member archive (utf16 "config.json") = some text ∧
    tools.parseConfig text = some config ∧ ∀ name, config.get name = input.checkout.files.get name
  /-- The files are keys of a ConfigMap. -/
  names : ∀ name content, input.checkout.files.get name = some content → plainName name = true
  credentials : ∀ key ∈ keys, (tools.member archive (utf16 "credentials/" ++ key)).isSome
  environment : completion.manifest.environment = input.environment
  cassandraImage :
    completion.manifest.cassandraImage = (input.checkout.values input.environment).cassandraImage
  janusgraphImage :
    completion.manifest.janusgraphImage = (input.checkout.values input.environment).janusgraphImage
  graphKeyspace :
    completion.manifest.graphKeyspace = some (input.checkout.values input.environment).graphKeyspace
  stateKeyspace :
    completion.manifest.stateKeyspace = some (input.checkout.values input.environment).stateKeyspace

/-- The guard is exact: it lets compatible archives pass only, and all that a
backup has captured of the checkout. -/
def Exact (tools : Tools) (input : Input) : Prop :=
  (Reaches tools input → ∃ inner config, Compatible tools input inner config) ∧
    ∀ setup owner completion archive, Captured tools input setup owner completion archive →
      Reaches tools input

/-! ## What the guard compares -/

/-- The comparisons the guard makes, all with success. -/
structure Compared (tools : Tools) (input : Input) (manifest inner : Parsed) (archive : Bytes)
    (config : Files) : Prop where
  place : manifestPrefix input.environment <+: input.manifestKey ∧ utf16 ".tar.gz.json" <:+ input.manifestKey
  size : ∀ text, input.object input.manifestKey = some text → text.length ≤ 1024 * 1024
  isManifest : input.manifest tools = some manifest
  format : manifest.format = some 2
  environment : manifest.environment = some input.environment.text
  key : manifest.key = some (archiveKey input.manifestKey)
  images : manifest.cassandraImage = some input.checkout.defaults.cassandraImage ∧
    manifest.janusgraphImage = some input.checkout.defaults.janusgraphImage
  isArchive : input.archive tools = some archive
  sha256 : manifest.sha256 = some (tools.sha256 archive)
  isInner : input.inner tools = some inner
  metadata : inner.id = manifest.id ∧ inner.environment = some input.environment.text ∧
    inner.cassandraImage = manifest.cassandraImage ∧ inner.janusgraphImage = manifest.janusgraphImage
  isConfig : input.config tools = some config
  /-- Every archived file is in the checkout, with its content. -/
  files : ∀ entry ∈ config.entries, plainName entry.1 = true ∧
    input.checkout.files.get entry.1 = some entry.2
  credentials : ∀ key ∈ keys, (tools.member archive (utf16 "credentials/" ++ key)).isSome

/-- The overlay leaves the images of `values.yaml`. -/
def ImagesKept (input : Input) : Prop :=
  (input.checkout.values input.environment).cassandraImage = input.checkout.defaults.cassandraImage ∧
    (input.checkout.values input.environment).janusgraphImage = input.checkout.defaults.janusgraphImage

/-- What the guard does not compare agrees as well. -/
structure Agreeing (input : Input) (inner : Parsed) (config : Files) : Prop where
  images : ImagesKept input
  keyspaces : inner.graphKeyspace = some (input.checkout.values input.environment).graphKeyspace ∧
    inner.stateKeyspace = some (input.checkout.values input.environment).stateKeyspace
  /-- Every file of the checkout is in the archive. -/
  files : ∀ name content, input.checkout.files.get name = some content → (config.get name).isSome

theorem check_ok {allowed : Bool} {message : String} {u : Unit} :
    check allowed message = .ok u ↔ allowed = true := by
  unfold check
  split <;> simp_all

theorem orThrow_ok {α : Type} {found : Option α} {message : String} {a : α} :
    orThrow found message = .ok a ↔ found = some a := by
  cases found <;> simp [orThrow]

theorem checkConfig_ok {files : Files} {entries : List (JString × JString)} {u : Unit} :
    checkConfig files entries = .ok u ↔
      ∀ entry ∈ entries, plainName entry.1 = true ∧ files.get entry.1 = some entry.2 := by
  induction entries generalizing u with
  | nil => simp [checkConfig]
  | cons entry rest ih =>
    obtain ⟨name, content⟩ := entry
    simp only [checkConfig, bind_ok, check_ok, orThrow_ok, ih, List.forall_mem_cons, beq_iff_eq]
    constructor
    · rintro ⟨_, hname, text, htext, _, rfl, hrest⟩
      exact ⟨⟨hname, htext⟩, hrest⟩
    · rintro ⟨⟨hname, htext⟩, hrest⟩
      exact ⟨(), hname, content, htext, (), rfl, hrest⟩

theorem extractCredentials_ok {archive : Bytes} {names : List JString} {u : Unit} :
    extractCredentials tools archive names = .ok u ↔
      ∀ key ∈ names, (tools.member archive (utf16 "credentials/" ++ key)).isSome := by
  induction names generalizing u with
  | nil => simp [extractCredentials]
  | cons key rest ih => simp [extractCredentials, bind_ok, orThrow_ok, ih, Option.isSome_iff_exists]

/-- The guard passes exactly when all it compares agrees. -/
theorem reaches_iff : Reaches tools input ↔
    ∃ manifest inner archive config, Compared tools input manifest inner archive config := by
  simp only [Reaches, restoreGuard, bind_ok, check_ok, orThrow_ok, checkConfig_ok, extractCredentials_ok,
    Bool.and_eq_true, beq_iff_eq, decide_eq_true_eq, List.isPrefixOf_iff_prefix, endsWith,
    List.isSuffixOf_iff_suffix]
  constructor
  · rintro ⟨_, hplace, text, htext, _, hsize, manifest, hmanifest, _, ⟨⟨⟨hformat, henv⟩, hkey⟩, -⟩, _,
      himages, archive, harchive, _, hsha, innerText, hinnerText, inner, hinner, _,
      ⟨⟨⟨hid, henv'⟩, hcassandra⟩, hjanusgraph⟩, configText, hconfigText, config, hconfig, _, hfiles,
      hcredentials⟩
    have hm : input.manifest tools = some manifest := by simp [Input.manifest, htext, hmanifest]
    have ha : input.archive tools = some archive := by simp [Input.archive, hm, harchive]
    exact ⟨manifest, inner, archive, config,
      { place := hplace
        size := fun t ht => by rw [htext] at ht; cases ht; exact hsize
        isManifest := hm
        format := hformat
        environment := henv
        key := hkey
        images := himages
        isArchive := ha
        sha256 := hsha.symm
        isInner := by simp [Input.inner, ha, hinnerText, hinner]
        metadata := ⟨hid, henv', hcassandra, hjanusgraph⟩
        isConfig := by simp [Input.config, ha, hconfigText, hconfig]
        files := hfiles
        credentials := hcredentials }⟩
  · rintro ⟨manifest, inner, archive, config, h⟩
    obtain ⟨text, htext, hmanifest⟩ := Option.bind_eq_some_iff.mp h.isManifest
    have harchive : manifest.key.bind input.object = some archive := by
      simpa [Input.archive, h.isManifest] using h.isArchive
    have hinner : (tools.member archive (utf16 "manifest.json")).bind tools.parseManifest = some inner := by
      simpa [Input.inner, h.isArchive] using h.isInner
    have hconfig : (tools.member archive (utf16 "config.json")).bind tools.parseConfig = some config := by
      simpa [Input.config, h.isArchive] using h.isConfig
    obtain ⟨innerText, hinnerText, hinner⟩ := Option.bind_eq_some_iff.mp hinner
    obtain ⟨configText, hconfigText, hconfig⟩ := Option.bind_eq_some_iff.mp hconfig
    refine ⟨(), h.place, text, htext, (), h.size text htext, manifest, hmanifest, (),
      ⟨⟨⟨h.format, h.environment⟩, h.key⟩, ?_⟩, (), h.images, archive, harchive, (), h.sha256.symm,
      innerText, hinnerText, inner, hinner, (),
      ⟨⟨⟨h.metadata.1, h.metadata.2.1⟩, h.metadata.2.2.1⟩, h.metadata.2.2.2⟩, configText, hconfigText, config,
      hconfig, (), h.files, h.credentials⟩
    simp [h.sha256, tools.digest]

/-! ## Exactness -/

theorem Files.mem_of_get {files : Files} {name content : JString} (h : files.get name = some content) :
    (name, content) ∈ files.entries := by
  obtain ⟨entry, he, rfl⟩ := Option.map_eq_some_iff.mp h
  have hname : entry.1 = name := by simpa using List.find?_some he
  have := List.mem_of_find?_eq_some he
  rwa [← hname]

theorem find?_of_nodup {name content : JString} : ∀ {entries : List (JString × JString)},
    (entries.map (·.1)).Nodup → (name, content) ∈ entries →
      entries.find? (fun entry => entry.1 == name) = some (name, content)
  | entry :: rest, hn, hm => by
    simp only [List.map_cons, List.nodup_cons, List.mem_map, not_exists, not_and] at hn
    rcases List.mem_cons.mp hm with rfl | hm
    · simp
    · have hne : (entry.1 == name) = false := by
        simpa using fun he => hn.1 (name, content) hm he.symm
      rw [List.find?_cons, hne]
      exact find?_of_nodup hn.2 hm

theorem Files.get_of_mem {files : Files} {entry : JString × JString} (h : entry ∈ files.entries) :
    files.get entry.1 = some entry.2 := by
  rw [Files.get, find?_of_nodup files.nodup h]
  rfl

/-- Where the guard passes, the archive is compatible exactly when what the
guard leaves out agrees. -/
theorem Compared.compatible_iff {manifest inner : Parsed} {archive : Bytes} {config : Files}
    (h : Compared tools input manifest inner archive config) :
    (∃ inner config, Compatible tools input inner config) ↔ Agreeing input inner config := by
  constructor
  · rintro ⟨inner', config', hc⟩
    obtain rfl : inner = inner' := Option.some.inj (h.isInner.symm.trans hc.isInner)
    obtain rfl : config = config' := Option.some.inj (h.isConfig.symm.trans hc.isConfig)
    have hcassandra := (hc.cassandraImage.symm.trans h.metadata.2.2.1).trans h.images.1
    have hjanusgraph := (hc.janusgraphImage.symm.trans h.metadata.2.2.2).trans h.images.2
    refine ⟨⟨Option.some.inj hcassandra, Option.some.inj hjanusgraph⟩,
      ⟨hc.graphKeyspace, hc.stateKeyspace⟩, fun name content hf => ?_⟩
    rw [hc.files, hf]
    rfl
  · intro ha
    refine ⟨inner, config, h.isInner, h.isConfig, ?_, ?_, ha.keyspaces.1, ha.keyspaces.2, fun name => ?_⟩
    · rw [h.metadata.2.2.1, h.images.1, ha.images.1]
    · rw [h.metadata.2.2.2, h.images.2, ha.images.2]
    · have hsub : ∀ content, config.get name = some content → input.checkout.files.get name = some content :=
        fun content hg => (h.files _ (Files.mem_of_get hg)).2
      cases hf : input.checkout.files.get name with
      | some content =>
        obtain ⟨content', hg⟩ := Option.isSome_iff_exists.mp (ha.files name content hf)
        rw [hg, ← hf, hsub content' hg]
      | none =>
        cases hg : config.get name with
        | none => rfl
        | some content => exact absurd (hf.symm.trans (hsub content hg)) nofun

section

variable {setup : Setup} {owner : PodName} {completion : Completion} {archive : Bytes}

theorem archiveKey_json (key : JString) : archiveKey (key ++ utf16 ".json") = key := by
  have hlength : (utf16 ".json").length = 5 := by decide
  simp [archiveKey, hlength]

/-- What a backup has captured of the checkout passes exactly when the images
are those of `values.yaml` and the manifest is no longer than 1 MiB. -/
theorem Captured.reaches_iff (h : Captured tools input setup owner completion archive) :
    Reaches tools input ↔ ImagesKept input ∧
      ∀ text, input.object input.manifestKey = some text → text.length ≤ 1024 * 1024 := by
  obtain ⟨text, htext, hparsed⟩ := h.published
  obtain ⟨innerText, hinnerText, hinner⟩ := h.inner
  obtain ⟨configText, config, hconfigText, hconfig, hfiles⟩ := h.config
  have hm : input.manifest tools = some (parsedCompletion completion) := by
    simp [Input.manifest, htext, hparsed]
  have ha : input.archive tools = some archive := by
    simp [Input.archive, hm, parsedCompletion, h.stored]
  rw [Restore.reaches_iff]
  constructor
  · rintro ⟨manifest, inner, archive', config', hc⟩
    obtain rfl : parsedCompletion completion = manifest := Option.some.inj (hm.symm.trans hc.isManifest)
    have hcassandra : completion.manifest.cassandraImage = input.checkout.defaults.cassandraImage :=
      Option.some.inj hc.images.1
    have hjanusgraph : completion.manifest.janusgraphImage = input.checkout.defaults.janusgraphImage :=
      Option.some.inj hc.images.2
    exact ⟨⟨h.cassandraImage.symm.trans hcassandra, h.janusgraphImage.symm.trans hjanusgraph⟩, hc.size⟩
  · rintro ⟨⟨hcassandra, hjanusgraph⟩, hsize⟩
    refine ⟨parsedCompletion completion, parsedManifest completion.manifest, archive, config, ?_⟩
    exact
      { place := by
          rw [h.manifestKey, Setup.Key, Setup.pre, h.space]
          refine ⟨⟨setup.id owner ++ utf16 ".tar.gz" ++ utf16 ".json", ?_⟩,
            ⟨manifestPrefix input.environment ++
            setup.id owner, ?_⟩⟩
          · simp only [manifestPrefix, List.append_assoc]
          · have hsuffix : utf16 ".tar.gz.json" = utf16 ".tar.gz" ++ utf16 ".json" := by decide
            simp only [manifestPrefix, hsuffix, List.append_assoc]
        size := hsize
        isManifest := hm
        format := rfl
        environment := by simp [parsedCompletion, parsedManifest, h.environment]
        key := by rw [h.manifestKey, archiveKey_json, ← h.key]; rfl
        images := ⟨congrArg some (h.cassandraImage.trans hcassandra),
          congrArg some (h.janusgraphImage.trans hjanusgraph)⟩
        isArchive := ha
        sha256 := congrArg some h.sha256
        isInner := by simp [Input.inner, ha, hinnerText, hinner]
        metadata := ⟨rfl, by simp [parsedManifest, h.environment], rfl, rfl⟩
        isConfig := by simp [Input.config, ha, hconfigText, hconfig]
        files := fun entry he => by
          have hg := hfiles entry.1 ▸ Files.get_of_mem he
          exact ⟨h.names _ _ hg, hg⟩
        credentials := h.credentials }

end

/-- **The restore guard is exact** on an input exactly when, its comparisons
all succeeding, what it leaves out agrees too, and when a capture of the
checkout has the images of `values.yaml` and a manifest of at most 1 MiB. -/
theorem restore_exact_iff (tools : Tools) (input : Input) :
    Exact tools input ↔
      (∀ manifest inner archive config, Compared tools input manifest inner archive config →
        Agreeing input inner config) ∧
      ∀ setup owner completion archive, Captured tools input setup owner completion archive →
        ImagesKept input ∧
          ∀ text, input.object input.manifestKey = some text → text.length ≤ 1024 * 1024 := by
  constructor
  · rintro ⟨hsound, hcomplete⟩
    refine ⟨fun manifest inner archive config hc => ?_, fun setup owner completion archive hc => ?_⟩
    · exact hc.compatible_iff.mp (hsound (reaches_iff.mpr ⟨manifest, inner, archive, config, hc⟩))
    · exact hc.reaches_iff.mp (hcomplete setup owner completion archive hc)
  · rintro ⟨hsound, hcomplete⟩
    refine ⟨fun hr => ?_, fun setup owner completion archive hc => ?_⟩
    · obtain ⟨manifest, inner, archive, config, hc⟩ := reaches_iff.mp hr
      exact hc.compatible_iff.mpr (hsound manifest inner archive config hc)
    · exact hc.reaches_iff.mpr (hcomplete setup owner completion archive hc)

/-! ## A checkout with other keyspaces -/

/-- A completion manifest of `dev`. -/
def sampleManifest : Manifest where
  environment := .dev
  id := utf16 "2026-01-05T08-00-00-000Z-b1"
  capturedAt := 0
  cassandraImage := utf16 "cassandra:5"
  janusgraphImage := utf16 "janusgraph:1"
  chartRevision := none
  graphKeyspace := some (utf16 "cartyx_dev_graph")
  stateKeyspace := some (utf16 "cartyx_dev_state")

/-- The key of its archive. -/
def sampleKey : JString := manifestPrefix .dev ++ sampleManifest.id ++ utf16 ".tar.gz"

/-- The chart's files, and the archive's copy of them. -/
def sampleFiles : Files := ⟨[(utf16 "jvm.options", utf16 "-Xmx1G")], by decide⟩

/-- Tools that know a manifest, an archive and the archive's members. -/
def sampleTools : Tools where
  sha256 _ := List.replicate 64 97
  digest _ := by decide
  parseManifest text :=
    if text = [1] then
      some (parsedCompletion ⟨sampleManifest, List.replicate 64 97, 1, sampleKey⟩)
    else some (parsedManifest sampleManifest)
  parseConfig _ := some sampleFiles
  member _ _ := some []

/-- The dev checkout of the sample, its graph keyspace renamed since. -/
def renamed : Input where
  environment := .dev
  manifestKey := sampleKey ++ utf16 ".json"
  object key := if key = sampleKey then some [2] else some [1]
  checkout :=
    { defaults := ⟨utf16 "cassandra:5", utf16 "janusgraph:1", utf16 "cartyx_graph", utf16 "cartyx_state"⟩
      overlay := fun _ =>
        { graphKeyspace := some (utf16 "cartyx_dev_graph_2")
          stateKeyspace := some (utf16 "cartyx_dev_state") }
      files := sampleFiles }

theorem restore_renamed : ¬ ∀ (tools : Tools) (input : Input), Exact tools input := by
  intro h
  have hreaches : Reaches sampleTools renamed := by
    unfold Reaches
    decide +kernel
  obtain ⟨inner, config, hc⟩ := (h sampleTools renamed).1 hreaches
  have hinner : renamed.inner sampleTools = some (parsedManifest sampleManifest) := by rfl
  obtain rfl := Option.some.inj (hinner.symm.trans hc.isInner)
  exact absurd hc.graphKeyspace (by decide)

end CartyxInfra.Restore
