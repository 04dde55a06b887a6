/-
Where `restore-cluster.mjs` works: the bucket, the operators' workstations and
the cluster's namespaces and volumes, what each call does there, and what else
moves there.

A failing call takes effect or not, but never later. Any number of runs go on
at a time, on any workstations, and two may read the same millisecond. Others
do what they like with the bucket and with every namespace that no live run
has made; a new volume may hold anything, and what runs on a volume writes to
it.
-/
import CartyxInfra.Restore.Rehearsal

namespace CartyxInfra.Restore

open JString Backup

/-- Whether a run is still to start, goes on or is over. -/
inductive Life
  | unborn
  | live
  | dead
  deriving DecidableEq

/-- What a run has in its directory. -/
inductive Item
  | archive
  | credentials
  | credential (key : JString)
  deriving DecidableEq

/-- A place in a run's directory, on a workstation. -/
structure Path where
  host : Nat
  space : JString
  item : Item
  deriving DecidableEq

/-- A file there. -/
structure File where
  /-- The run that has made the file. -/
  owner : Pid
  content : Bytes

/-- The pod of the Job `restore-loader`; it gets ready when it finds its volume empty. -/
inductive Loader
  | starting
  | ready
  | ended
  deriving DecidableEq

/-- A namespace, with what a restore makes in one. -/
structure Space where
  /-- The run that has made the namespace; none where it was anybody else. -/
  creator : Option Pid
  secrets : JString → Option Data := fun _ => none
  /-- The claim `cartyx-data-cassandra`, and the volume it is bound to. -/
  claim : Option (Option JString) := none
  /-- Whether the Job `restore-loader` is there. -/
  job : Bool := false
  /-- The Job's pod, which ends some time after the Job is deleted. -/
  loader : Option Loader := none
  /-- The values that the release `cartyx-data` was last installed with. -/
  release : Option Values := none

/-- A volume, with what is on it. -/
structure Volume (Tree : Type) where
  tree : Tree
  /-- The namespace of the claim it is bound to. -/
  claimRef : Option JString

/-- The cluster, the bucket and the workstations, with what the runs have got and done. -/
structure World (Tree : Type) where
  clock : Int
  life : Pid → Life
  objects : Connection → JString → Option Bytes
  files : Path → Option File
  spaces : JString → Option Space
  volumes : JString → Option (Volume Tree)
  /-- Whether a run's port-forward is up. -/
  forwards : Pid → Bool
  /-- What the bucket has given a run, by key. -/
  downloads : Pid → List (JString × Bytes)
  /-- The archives a run has unpacked whole into a volume that was empty, by the volume. -/
  extracted : Pid → List (JString × Bytes)

/-- How nature lets a call go. -/
structure Choice (Tree : Type) extends Fallible where
  /-- What a failing download leaves in its file. -/
  content : Bytes := []
  /-- What a failing or a second extraction leaves in the volume. -/
  tree : Option Tree := none
  port : JString := []

section

variable {Tree : Type}

/-- A namespace is this now, or gone. -/
def World.setSpace (w : World Tree) (space : JString) (s : Option Space) : World Tree :=
  { w with spaces := Function.update w.spaces space s }

/-- A file is this now, or gone. -/
def World.setFile (w : World Tree) (path : Path) (file : Option File) : World Tree :=
  { w with files := Function.update w.files path file }

/-- A volume is this now. -/
def World.setVolume (w : World Tree) (name : JString) (volume : Volume Tree) : World Tree :=
  { w with volumes := Function.update w.volumes name (some volume) }

/-- A run has got an object from the bucket. -/
def World.receive (w : World Tree) (p : Pid) (key : JString) (bytes : Bytes) : World Tree :=
  { w with downloads := Function.update w.downloads p ((key, bytes) :: w.downloads p) }

/-- A run's port-forward is up or not. -/
def World.setForward (w : World Tree) (p : Pid) (up : Bool) : World Tree :=
  { w with forwards := Function.update w.forwards p up }

/-- A namespace changes, where it is there. -/
def World.mapSpace (w : World Tree) (space : JString) (f : Space → Space) : World Tree :=
  w.setSpace space ((w.spaces space).map f)

/-- A command on a namespace that can be done where `allowed`, and does `f`. -/
def World.command (w : World Tree) (choice : Choice Tree) (space : JString) (allowed : Space → Bool)
    (f : Space → Space) : Option (Reply Unit × World Tree) :=
  if (w.spaces space).any allowed then choice.write w (w.mapSpace space f) else choice.refuse w

/-- A file that is made with `wx`. -/
def World.create (w : World Tree) (choice : Choice Tree) (p : Pid) (path : Path) (content : Bytes) :
    Option (Reply Unit × World Tree) :=
  match w.files path with
  | some _ => choice.refuse w
  | none => choice.write w (w.setFile path (some ⟨p, content⟩))

/-- What `--from-file` reads: each key with its file. -/
def World.credentials (w : World Tree) (host : Nat) (space : JString) : List JString → Option Data
  | [] => some []
  | key :: rest =>
    (w.files ⟨host, space, .credential key⟩).bind fun file =>
      (w.credentials host space rest).map fun data => (key, file.content) :: data

/-- The Secret of the databases' credentials. -/
def dataSecret : JString := utf16 "cartyx-data"

/-- The namespace with a Secret. -/
def Space.addSecret (s : Space) (name : JString) (data : Data) : Space :=
  { s with secrets := Function.update s.secrets name (some data) }

/-- The volume of the Job's pod, where that is ready. -/
def World.loaded (w : World Tree) (space : JString) : Option (JString × Volume Tree) :=
  (w.spaces space).bind fun s =>
    match s.job, s.loader, s.claim with
    | true, some .ready, some (some name) => (w.volumes name).map fun volume => (name, volume)
    | _, _, _ => none

/-- The Secret is created from the files. -/
def World.makeSecret (w : World Tree) (choice : Choice Tree) (host : Nat) (space : JString)
    (keys : List JString) : Option (Reply Unit × World Tree) :=
  match w.credentials host space keys with
  | some data => w.command choice space (fun s => (s.secrets dataSecret).isNone) (·.addSecret dataSecret data)
  | none => choice.refuse w

variable [DecidableEq Tree]

/-- `tar` unpacks the archive in the loader: in a volume that holds something
some of that may stay, and when it fails some of the archive may be there. -/
def World.unpack (w : World Tree) (setup : Setup Tree) (choice : Choice Tree) (p : Pid) (space : JString) :
    Option (Reply Unit × World Tree) :=
  match w.loaded space, w.files ⟨(setup.args p).host, space, .archive⟩ with
  | some (name, volume), some file =>
    match choice.error, setup.unpack file.content with
    | none, some tree =>
      if volume.tree = setup.empty then
        some (.ok (), { w.setVolume name { volume with tree := tree } with
          extracted := Function.update w.extracted p ((name, file.content) :: w.extracted p) })
      else some (.ok (), w.setVolume name { volume with tree := choice.tree.getD tree })
    | error, _ =>
      some (.error (error.getD (utf16 "tar")),
        w.setVolume name { volume with tree := choice.tree.getD volume.tree })
  | _, _ => choice.refuse w

/-- The values of the release that a run installs. -/
def Setup.values (setup : Setup Tree) (p : Pid) (environment : Namespace) : Values :=
  (setup.args p).checkout.values environment

/-- What a run's call answers and does, by nature's choice. -/
def perform (setup : Setup Tree) (p : Pid) : (c : Call) → Choice Tree → World Tree →
    Option (c.Ret × World Tree)
  | .now, _, w => some (w.clock, w)
  | .makeDirectory _, choice, w => choice.read w ()
  | .getSecret space name, choice, w => choice.find w ((w.spaces space).bind fun s => s.secrets name)
  | .getObject connection key, choice, w =>
    match choice.error, w.objects connection key with
    | none, some bytes => some (.ok bytes, w.receive p key bytes)
    | _, _ => choice.refuse w
  | .download connection key space, choice, w =>
    match choice.error, w.objects connection key, w.files ⟨(setup.args p).host, space, .archive⟩ with
    | none, some bytes, none =>
      some (.ok (), (w.receive p key bytes).setFile ⟨(setup.args p).host, space, .archive⟩ (some ⟨p, bytes⟩))
    | _, _, none =>
      some (.error (choice.error.getD (utf16 "NoSuchKey")), if choice.applied then
        w.setFile ⟨(setup.args p).host, space, .archive⟩ (some ⟨p, choice.content⟩) else w)
    | _, _, _ => choice.refuse w
  | .hash space, choice, w =>
    choice.find w ((w.files ⟨(setup.args p).host, space, .archive⟩).map fun file =>
      setup.tools.sha256 file.content)
  | .member space name, choice, w =>
    choice.find w ((w.files ⟨(setup.args p).host, space, .archive⟩).bind fun file =>
      setup.tools.member file.content name)
  | .makeCredentials space, choice, w => w.create choice p ⟨(setup.args p).host, space, .credentials⟩ []
  | .writeCredential space key content, choice, w =>
    w.create choice p ⟨(setup.args p).host, space, .credential key⟩ content
  | .createNamespace space, choice, w =>
    match w.spaces space with
    | some _ => choice.refuse w
    | none => choice.write w (w.setSpace space (some { creator := some p }))
  | .createSecret space keys, choice, w => w.makeSecret choice (setup.args p).host space keys
  | .createClaim space, choice, w =>
    w.command choice space (·.claim.isNone) fun s => { s with claim := some none }
  | .createJob space _, choice, w =>
    w.command choice space (!·.job) fun s => { s with job := true, loader := some .starting }
  | .waitReady space, choice, w =>
    choice.find w (if (w.spaces space).bind (·.loader) = some .ready then some () else none)
  | .extract space, choice, w => w.unpack setup choice p space
  | .deleteJob space, choice, w =>
    w.command choice space (·.job) fun s => { s with job := false }
  | .helm space environment, choice, w =>
    w.command choice space (fun _ => true) fun s => { s with release := some (setup.values p environment) }
  | .portForward _, choice, w => some ((), if choice.error.isNone then w.setForward p true else w)
  | .awaitPort, choice, w => choice.read w choice.port
  | .verify .., choice, w => choice.read w ()
  | .getClaim space, choice, w => choice.find w ((w.spaces space).bind (·.claim))
  | .writeResult _, choice, w => choice.read w ()
  | .killForward, _, w => some ((), w.setForward p false)

/-! ## What else moves -/

/-- No live run has made the namespace. -/
def World.idle (w : World Tree) (s : Space) : Bool := s.creator.all fun p => w.life p != .live

/-- The volume is bound to the namespace's claim. -/
def World.bound (w : World Tree) (space name : JString) : Bool :=
  (w.volumes name).any fun volume => volume.claimRef == some space

/-- A namespace as others may leave it. -/
def World.foreign (w : World Tree) (space : JString) (s : Space) : Bool :=
  s.creator.isNone && s.claim.all fun volume => volume.all fun name => w.bound space name

/-- Whether something runs on the volume, or it is no business of a restore. -/
def World.written (w : World Tree) (volume : Volume Tree) : Bool :=
  match volume.claimRef.bind w.spaces with
  | some s => s.creator.isNone || s.release.isSome
  | none => true

/-- What the cluster does, and what others do. -/
inductive Env (Tree : Type)
  | tick (ms : Nat)
  /-- Anything happens to the bucket. -/
  | publish (objects : Connection → JString → Option Bytes)
  /-- A volume is made, with anything in it. -/
  | provision (name : JString) (tree : Tree)
  | bind (space name : JString)
  /-- The loader's pod runs on its volume. -/
  | schedule (space : JString)
  | finish (space : JString)
  /-- The loader's pod is removed. -/
  | collect (space : JString)
  | write (name : JString) (tree : Tree)
  /-- Others make, change or remove a namespace. -/
  | operate (space : JString) (s : Option Space)
  /-- Others remove what a run has left in its directory. -/
  | clean (path : Path)
  /-- The port-forward ends by itself. -/
  | disconnect (p : Pid)

/-- What the loader's command makes of the volume it finds. -/
def Loader.start (setup : Setup Tree) (volume : Volume Tree) : Loader :=
  if volume.tree = setup.empty then .ready else .ended

/-- What such a step does, where it is possible. -/
def env (setup : Setup Tree) : Env Tree → World Tree → Option (World Tree)
  | .tick ms, w => some { w with clock := w.clock + ms }
  | .publish objects, w => some { w with objects := objects }
  | .provision name tree, w =>
    match w.volumes name with
    | none => some (w.setVolume name ⟨tree, none⟩)
    | some _ => none
  | .bind space name, w =>
    match w.spaces space, w.volumes name with
    | some s, some volume =>
      if s.claim = some none ∧ volume.claimRef = none then
        some ((w.setVolume name { volume with claimRef := some space }).setSpace space
          (some { s with claim := some (some name) }))
      else none
    | _, _ => none
  | .schedule space, w =>
    match w.spaces space with
    | some s =>
      match s.loader, s.claim.bind fun claim => claim.bind w.volumes with
      | some .starting, some volume =>
        some (w.setSpace space (some { s with loader := some (.start setup volume) }))
      | _, _ => none
    | none => none
  | .finish space, w => some (w.mapSpace space fun s => { s with loader := s.loader.map fun _ => .ended })
  | .collect space, w => some (w.mapSpace space fun s => { s with loader := none })
  | .write name tree, w =>
    match w.volumes name with
    | some volume => if w.written volume then some (w.setVolume name { volume with tree := tree }) else none
    | none => none
  | .operate space s, w =>
    if (w.spaces space).all w.idle && s.all (w.foreign space) then some (w.setSpace space s) else none
  | .clean path, w =>
    if (w.files path).all fun file => w.life file.owner != .live then some (w.setFile path none) else none
  | .disconnect p, w => some (w.setForward p false)

/-- A run starts. -/
def start (p : Pid) (w : World Tree) : Option (World Tree) :=
  if w.life p = .unborn then some { w with life := Function.update w.life p .live } else none

/-- A run that has ended or is killed; its port-forward may stay. -/
def halt (p : Pid) (w : World Tree) : World Tree := { w with life := Function.update w.life p .dead }

/-- Runs of `restore-cluster.mjs` against the clusters' one API. -/
def machine (setup : Setup Tree) : Machine Pid Call Call.Ret (World Tree) (Choice Tree) (Env Tree) where
  perform := perform setup
  start := start
  stop := halt
  env := env setup

/-- A run, with no port-forward yet. -/
def program (setup : Setup Tree) (p : Pid) (_ : Unit) : Script Call Call.Ret (Except JString Result × Bool) :=
  (main setup (setup.args p)).script false

/-- A pool of runs. -/
abbrev Runs (Tree : Type) := Pool Pid Call Call.Ret (World Tree) (Except JString Result × Bool)

/-- Where runs begin: a cluster and workstations on which no run has done anything yet. -/
structure Initial (w : World Tree) : Prop where
  unborn : ∀ p, w.life p = .unborn
  spaces : ∀ space s, w.spaces space = some s → s.creator = none
  claims : ∀ space s name, w.spaces space = some s → s.claim = some (some name) → w.bound space name = true
  quiet : ∀ p, w.forwards p = false
  downloads : ∀ p, w.downloads p = []
  extracted : ∀ p, w.extracted p = []

end

end CartyxInfra.Restore
