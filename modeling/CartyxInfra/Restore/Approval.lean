/-
A run of `restore-cluster.mjs` before it touches the cluster: what it has
downloaded is in its directory, and its checks are those of `restoreGuard`.
-/
import CartyxInfra.Restore.Steps

namespace CartyxInfra.Restore

open JString Backup

variable {Tree : Type} {setup : Setup Tree} {flag : Bool} {p : Pid} {w w' : World Tree} {space : JString}
  {B : World Tree → Prop} {bytes : Bytes} {manifest archive : JString × Bytes}

/-- The files of some credentials hold what the archive has for them. -/
def Written (setup : Setup Tree) (p : Pid) (space : JString) (bytes : Bytes) (done : List JString)
    (w : World Tree) : Prop :=
  ∀ key ∈ done, ∃ content, w.files ⟨(setup.args p).host, space, .credential key⟩ = some ⟨p, content⟩ ∧
    setup.tools.member bytes (utf16 "credentials/" ++ key) = some content

theorem kept_written {done : List JString} : Kept setup p (Written setup p space bytes done) :=
  fun _ _ hc h key hkey =>
    have ⟨content, hfile, hmember⟩ := h key hkey
    ⟨content, hc.files _ _ hfile rfl, hmember⟩

/-- The Secret's data is what the files of its keys hold. -/
theorem credentials_eq : ∀ {names : List JString} {data : Data},
    w.credentials (setup.args p).host space names = some data → Written setup p space bytes names w →
      data.map (·.1) = names ∧
        ∀ entry ∈ data, setup.tools.member bytes (utf16 "credentials/" ++ entry.1) = some entry.2
  | [], data, h, _ => by
    cases h
    simp
  | key :: rest, data, h, hwritten => by
    obtain ⟨content, hfile, hmember⟩ := hwritten key (List.mem_cons_self ..)
    simp only [World.credentials, hfile, Option.bind_some, Option.map_eq_some_iff] at h
    obtain ⟨data', hdata, rfl⟩ := h
    obtain ⟨hnames, hentries⟩ := credentials_eq hdata fun k hk => hwritten k (List.mem_cons_of_mem _ hk)
    refine ⟨by simp [hnames], fun entry hentry => ?_⟩
    rcases List.mem_cons.1 hentry with rfl | hrest
    · exact hmember
    · exact hentries entry hrest

variable [DecidableEq Tree]

/-! ## From the bucket to the guard -/

theorem verified_getObject {connection : Connection} {key : JString} :
    Verified setup flag p (fun _ => True)
      (getObject connection key) fun text w => (key, text) ∈ w.downloads p := by
  refine verified_call (.const True) fun w hw _ _ => ⟨trivial, fun choice r w' hr => ?_⟩
  simp only [perform] at hr
  split at hr
  · next bytes _ _ =>
    cases hr
    exact ⟨.receive hw, .inl ⟨bytes, rfl, by simp [World.receive]⟩⟩
  · obtain ⟨rfl, message, rfl⟩ := Fallible.refuse_eq hr
    exact ⟨.refl hw, .inr ⟨message, rfl⟩⟩

/-- What is stored is what the bucket has given. -/
theorem verified_download {connection : Connection} {key : JString} {entry : JString × Bytes} :
    Verified setup flag p (fun w => entry ∈ w.downloads p) (download connection key space)
      fun _ w => ∃ archive, (entry ∈ w.downloads p ∧ (key, archive) ∈ w.downloads p) ∧
        Stored setup p space archive w := by
  refine verified_call kept_downloads fun w hw _ hb => ⟨trivial, fun choice r w' hr => ?_⟩
  simp only [perform] at hr
  split at hr
  · next bytes _ _ hnone =>
    cases hr
    refine ⟨.setFile (.receive hw) rfl hnone, .inl ⟨(), rfl, bytes, ⟨?_, ?_⟩, ?_⟩⟩
    · simp [World.receive, World.setFile, hb]
    · simp [World.receive, World.setFile]
    · simp [Stored, World.setFile]
  · next hnone _ =>
    simp only [Option.some.injEq, Prod.mk.injEq] at hr
    obtain ⟨rfl, rfl⟩ := hr
    refine ⟨?_, .inr ⟨_, rfl⟩⟩
    split
    · exact .setFile (.refl hw) rfl hnone
    · exact .refl hw
  · obtain ⟨rfl, message, rfl⟩ := Fallible.refuse_eq hr
    exact ⟨.refl hw, .inr ⟨message, rfl⟩⟩

theorem verified_hash (hB : Kept setup p B) (hstored : ∀ w, B w → Stored setup p space bytes w) :
    Verified setup flag p B (hash space) fun digest w => B w ∧ digest = setup.tools.sha256 bytes := by
  have hfind : Verified setup flag p B (hash space) fun digest w => B w ∧
      (w.files ⟨(setup.args p).host, space, .archive⟩).map (fun file => setup.tools.sha256 file.content) =
        some digest :=
    verified_find hB (fun _ _ => trivial) fun w choice r w' hr => await_find hr
  refine hfind.conseq (fun _ h => h) fun digest w ⟨hb, hlook⟩ => ⟨hb, ?_⟩
  have hfile := hstored w hb
  simp only [Stored] at hfile
  simp only [hfile, Option.map_some, Option.some.injEq] at hlook
  exact hlook.symm

theorem verified_member {name : JString} (hB : Kept setup p B)
    (hstored : ∀ w, B w → Stored setup p space bytes w) :
    Verified setup flag p B (member space name) fun content w =>
      B w ∧ setup.tools.member bytes name = some content := by
  have hfind : Verified setup flag p B (member space name) fun content w => B w ∧
      (w.files ⟨(setup.args p).host, space, .archive⟩).bind (fun file => setup.tools.member file.content name) =
        some content :=
    verified_find hB (fun _ _ => trivial) fun w choice r w' hr => await_find hr
  refine hfind.conseq (fun _ h => h) fun content w ⟨hb, hlook⟩ => ⟨hb, ?_⟩
  have hfile := hstored w hb
  simp only [Stored] at hfile
  simpa only [hfile, Option.bind_some] using hlook

/-- A file of the run's that was not there leaves those that were. -/
theorem verified_create {c : Call} {next : c.Ret → Js Unit} {path : Path} {content : Bytes}
    (hB : Kept setup p B) (hpending : ∀ w, B w → Pending setup p c w)
    (hperform : ∀ w choice r w', perform setup p c choice w = some (r, w') →
      ∃ r', w.create choice p path content = some (r', w') ∧ next r = await r')
    (hfiles : ∀ w, B w → w.files path = none → B (w.setFile path (some ⟨p, content⟩))) :
    Verified setup flag p B (Program.make c >>= next) fun _ w => B w ∧ w.files path = some ⟨p, content⟩ := by
  refine verified_call hB fun w hw _ hb => ⟨hpending w hb, fun choice r w' hr => ?_⟩
  obtain ⟨r', hcreate, hnext⟩ := hperform w choice r w' hr
  rw [hnext]
  unfold World.create at hcreate
  split at hcreate
  · obtain ⟨rfl, message, rfl⟩ := Fallible.refuse_eq hcreate
    exact ⟨.refl hw, .inr ⟨message, rfl⟩⟩
  · next hnone =>
    have hmoves : Moves p w (w.setFile path (some ⟨p, content⟩)) := .setFile (.refl hw) rfl hnone
    rcases Fallible.write_eq hcreate with ⟨rfl, rfl⟩ | ⟨⟨message, rfl⟩, rfl | rfl⟩
    · exact ⟨hmoves, .inl ⟨(), rfl, hfiles w hb hnone, by simp [World.setFile]⟩⟩
    · exact ⟨.refl hw, .inr ⟨message, rfl⟩⟩
    · exact ⟨hmoves, .inr ⟨message, rfl⟩⟩

/-- What the run has downloaded, the archive also in its directory. -/
def Ready (setup : Setup Tree) (p : Pid) (space : JString) (manifest archive : JString × Bytes)
    (w : World Tree) : Prop :=
  (manifest ∈ w.downloads p ∧ archive ∈ w.downloads p) ∧ Stored setup p space archive.2 w

omit [DecidableEq Tree] in
theorem kept_ready : Kept setup p (Ready setup p space manifest archive) :=
  (kept_downloads.and kept_downloads).and kept_stored

omit [DecidableEq Tree] in
/-- Another file leaves the archive. -/
theorem Ready.setFile (h : Ready setup p space manifest archive w) {path : Path} {file : Option File}
    (hnone : w.files path = none) : Ready setup p space manifest archive (w.setFile path file) := by
  refine ⟨h.1, ?_⟩
  have hne : (⟨(setup.args p).host, space, .archive⟩ : Path) ≠ path := by
    rintro rfl
    have hstored := h.2
    simp [Stored, hnone] at hstored
  exact (Function.update_of_ne hne ..).trans h.2

omit [DecidableEq Tree] in
theorem Written.setFile {done : List JString} (h : Written setup p space bytes done w) {path : Path}
    {file : Option File} (hnone : w.files path = none) :
    Written setup p space bytes done (w.setFile path file) := by
  intro key hkey
  obtain ⟨content, hfile, hmember⟩ := h key hkey
  have hne : (⟨(setup.args p).host, space, .credential key⟩ : Path) ≠ path := by
    rintro rfl
    simp [hnone] at hfile
  exact ⟨content, (Function.update_of_ne hne ..).trans hfile, hmember⟩

theorem verified_makeCredentials :
    Verified setup flag p (Ready setup p space manifest archive) (makeCredentials space)
      fun _ => Ready setup p space manifest archive := by
  have hcreate : Verified setup flag p (Ready setup p space manifest archive) (makeCredentials space) fun _ w =>
      Ready setup p space manifest archive w ∧
        w.files ⟨(setup.args p).host, space, .credentials⟩ = some ⟨p, []⟩ :=
    verified_create kept_ready (fun _ _ => trivial) (fun w choice r w' hr => ⟨r, hr, rfl⟩)
      fun w h hnone => h.setFile hnone
  exact hcreate.conseq (fun _ h => h) fun _ _ h => h.1

theorem verified_writeCredential {done : List JString} {key : JString} {content : Bytes}
    (hmember : setup.tools.member archive.2 (utf16 "credentials/" ++ key) = some content) :
    Verified setup flag p (fun w => Ready setup p space manifest archive w ∧
      Written setup p space archive.2 done w)
      (writeCredential space key content)
      fun _ w => Ready setup p space manifest archive w ∧
        Written setup p space archive.2 (done ++ [key]) w := by
  have hcreate : Verified setup flag p
      (fun w => Ready setup p space manifest archive w ∧ Written setup p space archive.2 done w)
      (writeCredential space key content) fun _ w =>
        (Ready setup p space manifest archive w ∧ Written setup p space archive.2 done w) ∧
          w.files ⟨(setup.args p).host, space, .credential key⟩ = some ⟨p, content⟩ :=
    verified_create (kept_ready.and kept_written) (fun _ _ => trivial) (fun w choice r w' hr => ⟨r, hr, rfl⟩)
      fun w h hnone => ⟨h.1.setFile hnone, h.2.setFile hnone⟩
  refine hcreate.conseq (fun _ h => h) fun _ w ⟨⟨hr, hd⟩, hfile⟩ => ⟨hr, fun other hother => ?_⟩
  rcases List.mem_append.1 hother with hold | hnew
  · exact hd other hold
  · obtain rfl := List.mem_singleton.1 hnew
    exact ⟨content, hfile, hmember⟩

/-- The loop writes each credential once; what it has written stays. -/
theorem verified_writeCredentials : ∀ (rest done : List JString),
    Verified setup flag p (fun w => Ready setup p space manifest archive w ∧
      Written setup p space archive.2 done w)
      (writeCredentials space rest)
      fun _ w => Ready setup p space manifest archive w ∧ Written setup p space archive.2 (done ++ rest) w
  | [], done => verified_pure () fun _ h => by simpa using h
  | key :: rest, done => by
    refine Triple.bind (verified_member (kept_ready.and kept_written) fun _ h => h.1.2)
      fun content => ?_
    refine Verified.extract (fun _ h => h.2) fun hmember => ?_
    have hwrite : Verified setup flag p
        (fun w => Ready setup p space manifest archive w ∧ Written setup p space archive.2 done w)
        (writeCredential space key content) fun _ w =>
          Ready setup p space manifest archive w ∧ Written setup p space archive.2 (done ++ [key]) w :=
      verified_writeCredential hmember
    refine Triple.bind (hwrite.conseq (fun _ h => h.1) fun _ _ h => h) fun _ => ?_
    have ih := verified_writeCredentials rest (done ++ [key])
    rwa [List.append_assoc] at ih

/-! ## The guard -/

section

variable {args : Arguments} {environment : Namespace} {manifestKey : JString} {text : Bytes} {parsed : Parsed}

omit [DecidableEq Tree] in
theorem checkManifest_ok (h : checkManifest setup args environment manifestKey text = .ok parsed) :
    text.length ≤ 1024 * 1024 ∧ setup.tools.parseManifest text = some parsed ∧
      (((parsed.format = some 2 ∧ parsed.environment = some environment.text) ∧
        parsed.key = some (archiveKey manifestKey)) ∧ parsed.sha256.any isDigest = true) ∧
      parsed.cassandraImage = some args.checkout.defaults.cassandraImage ∧
        parsed.janusgraphImage = some args.checkout.defaults.janusgraphImage := by
  simp only [checkManifest, bind_ok, check_ok, orThrow_ok, decide_eq_true_eq, Bool.and_eq_true, beq_iff_eq] at h
  obtain ⟨_, hsize, m, hparsed, _, hfields, _, himages, hpure⟩ := h
  cases hpure
  exact ⟨hsize, hparsed, hfields, himages⟩

/-- The name of the archive is not that of its manifest. -/
theorem archiveKey_ne (h : ofCluster environment manifestKey = true) : archiveKey manifestKey ≠ manifestKey := by
  intro heq
  simp only [ofCluster, Bool.and_eq_true, endsWith, List.isSuffixOf_iff_suffix] at h
  have hlength := h.2.length_le
  have htake := congrArg List.length heq
  have hpos : 0 < (utf16 ".tar.gz.json").length := by decide
  simp only [archiveKey, List.length_take] at htake
  omega

omit [DecidableEq Tree] in
/-- The checks of the run are the guard's, on what the run has downloaded. -/
theorem approved_of {innerText configText : Bytes}
    (henvironment : (setup.args p).environment = some environment)
    (hmanifestKey : (setup.args p).manifestKey = some manifestKey)
    (hplace : ofCluster environment manifestKey = true)
    (hmanifest : checkManifest setup (setup.args p) environment manifestKey text = .ok parsed)
    (hsha : some (setup.tools.sha256 bytes) = parsed.sha256)
    (hinnerText : setup.tools.member bytes (utf16 "manifest.json") = some innerText)
    (hinner : checkInner setup environment parsed innerText = .ok ())
    (hconfigText : setup.tools.member bytes (utf16 "config.json") = some configText)
    (hconfig : checkArchivedConfig setup (setup.args p) configText = .ok ())
    (hcredentials : ∀ key ∈ keys, (setup.tools.member bytes (utf16 "credentials/" ++ key)).isSome)
    (hdownloads : (manifestKey, text) ∈ w.downloads p ∧ (archiveKey manifestKey, bytes) ∈ w.downloads p) :
    Approved setup p bytes w := by
  obtain ⟨hsize, hparsed, hfields, himages⟩ := checkManifest_ok hmanifest
  have hne := archiveKey_ne hplace
  let object (key : JString) : Option Bytes :=
    if key = manifestKey then some text else if key = archiveKey manifestKey then some bytes else none
  have htext : object manifestKey = some text := by simp [object]
  have hbytes : object (archiveKey manifestKey) = some bytes := by simp [object, hne]
  refine ⟨⟨environment, manifestKey, object, (setup.args p).checkout⟩, henvironment, hmanifestKey, rfl,
    fun key content hobject => ?_, ?_, ?_⟩
  · simp only [object] at hobject
    split at hobject
    · next heq =>
      cases hobject
      rw [heq]
      exact hdownloads.1
    · split at hobject
      · next heq =>
        cases hobject
        rw [heq]
        exact hdownloads.2
      · cases hobject
  · simp only [ofCluster] at hplace
    simp only [checkInner, bind_ok, check_ok, orThrow_ok] at hinner
    obtain ⟨inner, hparsedInner, hinner⟩ := hinner
    simp only [checkArchivedConfig, bind_ok, orThrow_ok] at hconfig
    obtain ⟨config, hparsedConfig, hfiles⟩ := hconfig
    simp only [Reaches, restoreGuard, bind_ok, check_ok, orThrow_ok, extractCredentials_ok]
    refine ⟨(), hplace, text, htext, (), by simpa using hsize, parsed, hparsed, (), ?_, (), ?_, bytes, ?_,
      (), ?_,
      innerText, hinnerText, inner, hparsedInner, (), hinner, configText, hconfigText, config,
        hparsedConfig, (),
      hfiles, hcredentials⟩
    · simpa using hfields
    · simpa using himages
    · simpa [hfields.1.2] using hbytes
    · simpa using hsha
  · simp [Input.archive, Input.manifest, htext, hparsed, hfields.1.2, hbytes]

/-- What the run needs to make its namespace: an archive that has passed the guard. -/
def Prepared (setup : Setup Tree) (p : Pid) (space : JString) (bytes : Bytes) (w : World Tree) : Prop :=
  (Approved setup p bytes w ∧ Stored setup p space bytes w) ∧ Written setup p space bytes keys w

theorem verified_prepare {connection : Connection}
    (henvironment : (setup.args p).environment = some environment)
    (hmanifestKey : (setup.args p).manifestKey = some manifestKey)
    (hplace : ofCluster environment manifestKey = true)
    (hmanifest : checkManifest setup (setup.args p) environment manifestKey text = .ok parsed) :
    Verified setup flag p (fun w => (manifestKey, text) ∈ w.downloads p)
      (prepare setup (setup.args p) environment parsed connection space)
      fun _ w => ∃ bytes, Prepared setup p space bytes w ∧ some (setup.tools.sha256 bytes) = parsed.sha256 := by
  have hkey := (checkManifest_ok hmanifest).2.2.1.1.2
  refine Triple.bind (verified_await _) fun key => Verified.extract (fun _ h => h.2) fun hk => ?_
  obtain rfl : archiveKey manifestKey = key := by
    rw [hkey] at hk
    exact Except.ok.inj hk
  refine Triple.bind (verified_download.conseq (fun _ h => h.1) fun _ _ h => h) fun _ => ?_
  refine Owned.exists_pre fun bytes => ?_
  let ready := Ready setup p space (manifestKey, text) (archiveKey manifestKey, bytes)
  have hkept : Kept setup p ready := kept_ready
  have hmember (name : JString) : Verified setup flag p ready (member space name)
      fun content w => ready w ∧ setup.tools.member bytes name = some content :=
    verified_member hkept fun _ h => h.2
  refine Triple.bind (verified_hash hkept fun _ h => h.2) fun digest => ?_
  refine Verified.extract (fun _ h => h.2) fun hdigest => ?_
  refine Triple.bind (verified_await _) fun _ => Verified.extract (fun _ h => h.2) fun hsha => ?_
  rw [check_ok, hdigest, beq_iff_eq] at hsha
  refine Triple.bind ((hmember _).conseq (fun _ h => h.1.1) fun _ _ h => h) fun innerText => ?_
  refine Verified.extract (fun _ h => h.2) fun hinnerText => ?_
  refine Triple.bind (verified_await _) fun _ => Verified.extract (fun _ h => h.2) fun hinner => ?_
  refine Triple.bind ((hmember _).conseq (fun _ h => h.1.1) fun _ _ h => h) fun configText => ?_
  refine Verified.extract (fun _ h => h.2) fun hconfigText => ?_
  refine Triple.bind (verified_await _) fun _ => Verified.extract (fun _ h => h.2) fun hconfig => ?_
  refine Triple.bind (verified_makeCredentials.conseq (fun _ h => h.1.1) fun _ _ h => h) fun _ => ?_
  refine (verified_writeCredentials keys []).conseq (fun _ h => ⟨h, by simp [Written]⟩) fun _ w ⟨hr, hwritten⟩ => ?_
  refine ⟨bytes, ⟨⟨approved_of henvironment hmanifestKey hplace hmanifest hsha hinnerText hinner hconfigText hconfig
    (fun key hkey => ?_) hr.1, hr.2⟩, hwritten⟩, hsha⟩
  obtain ⟨content, -, hcontent⟩ := hwritten key hkey
  simp [hcontent]

end

end CartyxInfra.Restore
