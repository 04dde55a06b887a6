/-
The machine that `backup.mjs` runs on: the local stack's containers, Docker's
volumes, the files and the lock, what each call does there, and what else
moves there.

A failing call takes effect or not, but never later. While a live run holds
the lock, nobody else operates the stack or touches the archives; databases
that are up still write, crash, and are started again by Docker unless they
were stopped on purpose.
-/
import CartyxInfra.Local.LocalBackup

namespace CartyxInfra.Local

open JString

/-- A run of the script. -/
abbrev Pid := Nat

/-- What `tar` makes of a tree, and how it is unpacked. -/
structure Tar (Tree : Type) where
  pack : Tree → Bytes
  unpack : Bytes → Option Tree
  unpack_pack : ∀ tree, unpack (pack tree) = some tree
  empty : Tree

/-- What a deployment fixes of its runs. -/
structure Setup (Tree : Type) where
  tar : Tar Tree
  sha256 : Bytes → JString

/-- A container of the stack, with what has been done to it. -/
structure Container where
  id : JString
  details : Details
  running : Bool
  /-- Stopped by `docker compose stop`, so that Docker does not start it again. -/
  stopped : Bool
  /-- Drained since it was last started. -/
  drained : Bool

/-- A file in the directory of the archives. -/
inductive File
  | archive (bytes : Bytes)
  /-- A manifest, or only a part of one, which is no JSON. -/
  | manifest (content : Option Manifest)

/-- Whether a run is still to start, goes on or is over. -/
inductive Life
  | unborn
  | live
  | dead
  deriving DecidableEq

/-- A `tar` at work on a volume, which something may have written to since. -/
structure Reading where
  volume : JString
  torn : Bool

/-- The machine, with what the runs' `tar`s are at and have read. -/
structure World (Tree : Type) where
  /-- The run that made the lock. -/
  lock : Option Pid
  life : Pid → Life
  containers : Service → Option Container
  volumes : JString → Option Tree
  files : Path → Option File
  /-- The volume that `restore.compose.yaml` names. -/
  override : Option JString
  /-- The volume that the restored stack runs on. -/
  restored : Option JString
  clock : Int
  reading : Pid → Option Reading
  /-- What `tar` has read whole of an untouched volume, by the archive's name. -/
  captured : List (JString × Tree)

/-- How nature lets a call go. -/
structure Choice (Tree : Type) extends Fallible where
  images : Images := ⟨[], []⟩
  imageId : JString := []
  /-- What a failing or killed `tar` leaves in the archive. -/
  content : Bytes := []
  /-- What a failing or a second extraction leaves in the volume. -/
  tree : Option Tree := none
  /-- Whether a failing write of a manifest writes a part of it. -/
  part : Bool := false
  /-- The containers `up` makes or starts. -/
  container : Service → Container
  /-- The services a failing `up` starts all the same. -/
  started : Service → Bool := fun _ => true

section

variable {Tree : Type}

/-- A container of the stack changes. -/
def World.mapContainer (w : World Tree) (s : Service) (f : Container → Container) : World Tree :=
  { w with containers := Function.update w.containers s ((w.containers s).map f) }

/-- A volume holds this now. -/
def World.setVolume (w : World Tree) (name : JString) (tree : Tree) : World Tree :=
  { w with volumes := Function.update w.volumes name (some tree) }

/-- A file is this now, or gone. -/
def World.setFile (w : World Tree) (path : Path) (file : Option File) : World Tree :=
  { w with files := Function.update w.files path file }

/-- A run's `tar` is at this now. -/
def World.setReading (w : World Tree) (p : Pid) (reading : Option Reading) : World Tree :=
  { w with reading := Function.update w.reading p reading }

/-- A container after `docker compose stop`. -/
def Container.stop (c : Container) : Container := { c with running := false, stopped := true }

/-- After `nodetool drain`. -/
def Container.drain (c : Container) : Container := { c with drained := true }

/-- A container that ends by itself. -/
def Container.crash (c : Container) : Container := { c with running := false }

/-- A container that Docker has started again. -/
def Container.restart (c : Container) : Container := { c with running := true, drained := false }

/-- After `docker compose up`. -/
def Container.up (c : Container) : Container := { c with running := true, stopped := false, drained := false }

/-- The containers after `up`. -/
def World.up (w : World Tree) (choice : Choice Tree) : World Tree :=
  { w with containers := fun s =>
      if choice.error.isNone || choice.started s then some (choice.container s).up else w.containers s }

/-- Whether a volume has the name of one that a restore makes. -/
def restoreName (volume : JString) : Bool := (utf16 "cartyx-restore-").isPrefixOf volume

/-- Compose names the volumes of the local stack after its project. -/
def Container.ofStack (c : Container) : Bool := c.details.volume.all fun volume => !restoreName volume

/-- Neither database is on a volume that a restore makes. -/
def ofStack (containers : Service → Option Container) : Bool :=
  (containers .cassandra).all Container.ofStack && (containers .janusgraph).all Container.ofStack

/-- The container of an id. -/
def World.container (w : World Tree) (id : JString) : Option Container :=
  [Service.cassandra, .janusgraph].findSome? fun s => (w.containers s).filter (·.id == id)

/-- The file that a write of a manifest leaves, when it fails and when it does not. -/
def Choice.manifest (choice : Choice Tree) (manifest : Manifest) : File :=
  .manifest (if choice.error.isSome && choice.part then none else some manifest)

/-- What a database writes tears the reading of its volume. -/
def Reading.tear (volume : JString) (reading : Reading) : Reading :=
  if reading.volume = volume then { reading with torn := true } else reading

/-- The end of a `tar` that has read its volume, torn or whole. -/
def World.exitTar (w : World Tree) (tar : Tar Tree) (p : Pid) (destination : Path) (content : Bytes) :
    World Tree :=
  match w.reading p with
  | some ⟨volume, false⟩ =>
    let tree := (w.volumes volume).getD tar.empty
    { w.setFile destination (some (.archive (tar.pack tree))) with
      captured := (destination.name, tree) :: w.captured }
  | _ => w.setFile destination (some (.archive content))

/-- An extraction into a volume: a volume that holds something may keep some of it. -/
def World.extract [DecidableEq Tree] (w : World Tree) (tar : Tar Tree) (volume : JString) (tree : Tree)
    (mixed : Option Tree) : World Tree :=
  if (w.volumes volume).getD tar.empty = tar.empty then w.setVolume volume tree
  else w.setVolume volume (mixed.getD tree)

end

section

variable {Tree : Type} [DecidableEq Tree]

/-- What a run's call answers and does, by nature's choice. -/
def perform (setup : Setup Tree) (p : Pid) : (c : Call) → Choice Tree → World Tree →
    Option (c.Ret × World Tree)
  | .config, choice, w => choice.read w choice.images
  | .makeOutput, choice, w => choice.read w ()
  | .makeLock, choice, w =>
    match w.lock with
    | some _ => choice.refuse w
    | none =>
      match choice.error with
      | none => some (.ok (), { w with lock := some p })
      | some message => some (.error message, w)
  | .removeLock, choice, w =>
    match w.lock with
    | some _ => choice.write w { w with lock := none }
    | none => choice.refuse w
  | .now, _, w => some (w.clock, w)
  | .ps service, choice, w =>
    choice.read w (((w.containers service).filter (·.running)).elim [] (·.id))
  | .inspect id, choice, w =>
    match w.container id with
    | some c => choice.read w c.details
    | none => choice.refuse w
  | .imageId _, choice, w => choice.read w choice.imageId
  | .stop service _, choice, w => choice.write w (w.mapContainer service .stop)
  | .drain, choice, w =>
    if (w.containers .cassandra).any (·.running) then
      choice.write w (w.mapContainer .cassandra .drain)
    else choice.refuse w
  | .startTar volume _ destination, choice, w =>
    match w.files destination with
    | some _ => choice.refuse w
    | none =>
      choice.write w ((w.setFile destination (some (.archive choice.content))).setReading p
        (some ⟨volume, false⟩))
  | .exitTar destination, choice, w =>
    match choice.error with
    | none => some (.ok (), (w.exitTar setup.tar p destination choice.content).setReading p none)
    | some message =>
      some (.error message, (w.setFile destination (some (.archive choice.content))).setReading p none)
  | .hash path, choice, w =>
    match w.files path with
    | some (.archive bytes) => choice.read w (setup.sha256 bytes)
    | _ => choice.refuse w
  | .writeManifest path manifest, choice, w =>
    choice.write w (w.setFile path (some (choice.manifest manifest)))
  | .readManifest path, choice, w =>
    match w.files path with
    | some (.manifest (some manifest)) => choice.read w manifest
    | _ => choice.refuse w
  | .up, choice, w =>
    if ofStack (w.up choice).containers then some (choice.reply (), w.up choice) else none
  | .createVolume name, choice, w =>
    choice.write w (w.setVolume name ((w.volumes name).getD setup.tar.empty))
  | .extract volume _ archive, choice, w =>
    match w.files archive, choice.error with
    | some (.archive bytes), none =>
      match setup.tar.unpack bytes with
      | some tree => some (.ok (), w.extract setup.tar volume tree choice.tree)
      | none => some (.error (utf16 "tar"), w.setVolume volume (choice.tree.getD setup.tar.empty))
    | _, error =>
      some (.error (error.getD (utf16 "tar")), w.setVolume volume (choice.tree.getD setup.tar.empty))
  | .writeOverride volume, choice, w => choice.write w { w with override := some volume }
  | .upRestored, choice, w => choice.write w { w with restored := w.override }
  | .smokeVerify, choice, w => choice.read w ()

/-- No live run holds the lock. -/
def World.idle (w : World Tree) : Bool :=
  match w.lock with
  | some p => w.life p != .live
  | none => true

/-- A database of a stack that is up runs on the volume. -/
def World.inUse (w : World Tree) (volume : JString) : Bool :=
  w.restored == some volume ||
    (w.containers .cassandra).any fun c => c.running && c.details.volume == some volume

/-- What moves by itself. -/
inductive Env (Tree : Type)
  | tick (ms : Nat)
  /-- A database writes. -/
  | write (volume : JString) (tree : Tree)
  | crash (service : Service)
  /-- Docker starts a container that has ended by itself. -/
  | restart (service : Service)
  /-- Somebody operates the stack. -/
  | operate (containers : Service → Option Container)
  | damage (path : Path) (bytes : Bytes)
  | remove (path : Path)
  | copy (source target : Path)
  /-- Somebody removes the lock of a run that is over. -/
  | clear

/-- What a step of the machine or of others does, where it is possible. -/
def env : Env Tree → World Tree → Option (World Tree)
  | .tick ms, w => some { w with clock := w.clock + ms }
  | .write volume tree, w =>
    if w.inUse volume then
      some { w.setVolume volume tree with reading := fun p => (w.reading p).map (·.tear volume) }
    else none
  | .crash service, w => some (w.mapContainer service .crash)
  | .restart service, w =>
    if (w.containers service).any fun c => !c.running && !c.stopped then
      some (w.mapContainer service .restart)
    else none
  | .operate containers, w =>
    if w.idle && ofStack containers then some { w with containers := containers } else none
  | .damage path bytes, w => if w.idle then some (w.setFile path (some (.archive bytes))) else none
  | .remove path, w => if w.idle then some (w.setFile path none) else none
  | .copy source target, w => if w.idle then some (w.setFile target (w.files source)) else none
  | .clear, w => if w.idle then some { w with lock := none } else none

/-- A run starts. -/
def start (p : Pid) (w : World Tree) : Option (World Tree) :=
  if w.life p = .unborn then some { w with life := Function.update w.life p .live } else none

/-- A run that has ended or is killed; its `tar` may go on, but nothing reads what it writes. -/
def halt (p : Pid) (w : World Tree) : World Tree := { w with life := Function.update w.life p .dead }

/-- Runs of `backup.mjs` on one machine. -/
def machine (setup : Setup Tree) : Machine Pid Call Call.Ret (World Tree) (Choice Tree) (Env Tree) where
  perform := perform setup
  start := start
  stop := halt
  env := env

/-- A run of a mode. -/
def program (_ : Pid) (mode : Mode) : Script Call Call.Ret (Except JString Unit × Unit) := (main mode).script ()

/-- A pool of runs. -/
abbrev Runs (Tree : Type) := Pool Pid Call Call.Ret (World Tree) (Except JString Unit × Unit)

/-- Where runs begin: no lock, no run yet, no manifest and nothing restored. -/
structure Initial (w : World Tree) : Prop where
  unlocked : w.lock = none
  unborn : ∀ p, w.life p = .unborn
  bare : ∀ path content, w.files path ≠ some (.manifest content)
  ofStack : ofStack w.containers = true
  restored : w.restored = none ∧ w.override = none
  started : ∀ s c, w.containers s = some c → c.stopped = false

end

end CartyxInfra.Local
