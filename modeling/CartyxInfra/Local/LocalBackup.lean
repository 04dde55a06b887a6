/-
`deploy/data/backup.mjs`: one run on a developer's machine, which backs the
local stack up or restores an archive into a volume of its own.

A command or a file operation can fail, with a text, and then throws. The
pipeline that copies `tar`'s output into the archive is two calls: the
archive is opened, and then `tar` ends and the archive is closed.
-/
import Mathlib.Data.List.DropRight
import CartyxInfra.Lib.Calendar
import CartyxInfra.Lib.Fallible
import CartyxInfra.Lib.Finally

namespace CartyxInfra.Local

open JString Calendar

/-- The content of a file. -/
abbrev Bytes := List UInt8

/-- The databases of the local stack. -/
inductive Service
  | cassandra
  | janusgraph
  deriving DecidableEq

/-- The images that `docker compose config` shows. -/
structure Images where
  cassandra : JString
  janusgraph : JString

/-- What `docker inspect` tells of a container. -/
structure Details where
  /-- `Config.Image`. -/
  configImage : JString
  /-- `Image`, the id. -/
  image : JString
  /-- The named volume that is mounted at `/var/lib/cassandra`. -/
  volume : Option JString
  deriving DecidableEq

/-- A path, resolved: `dirname` and `basename`. -/
structure Path where
  directory : JString
  name : JString
  deriving DecidableEq

/-- A manifest as `JSON.parse` reads it. A field that is missing or of another type is none here. -/
structure Manifest where
  format : Option Nat
  id : Option JString
  createdAt : Option JString
  environment : Option JString
  cassandraImage : Option JString
  cassandraImageId : Option JString
  janusgraphImage : Option JString
  janusgraphImageId : Option JString
  graphKeyspace : Option JString
  stateKeyspace : Option JString
  method : Option JString
  file : Option JString
  sha256 : Option JString
  credentials : Option JString
  deriving DecidableEq

/-- The calls of a run: `docker`, the files and the clock. -/
inductive Call
  /-- `docker compose config`, for the images. -/
  | config
  /-- `mkdirSync(outputDirectory)`. -/
  | makeOutput
  /-- `mkdirSync(lock)`. -/
  | makeLock
  /-- `rmSync(lock)`. -/
  | removeLock
  /-- `Date.now()`. -/
  | now
  /-- `docker compose ps -q`. -/
  | ps (service : Service)
  | inspect (container : JString)
  /-- `docker image inspect`, for the id. -/
  | imageId (image : JString)
  /-- `docker compose stop`, with its timeout. -/
  | stop (service : Service) (seconds : Nat)
  /-- `nodetool drain` in Cassandra's container. -/
  | drain
  /-- `tar` is started on a volume, and the archive is opened with `wx`. -/
  | startTar (volume image : JString) (destination : Path)
  /-- `tar` has ended, and the archive is closed. -/
  | exitTar (destination : Path)
  /-- The archive's checksum, read from the file. -/
  | hash (path : Path)
  | writeManifest (path : Path) (manifest : Manifest)
  | readManifest (path : Path)
  /-- `docker compose up -d --wait` of the stack. -/
  | up
  /-- `docker volume create`. -/
  | createVolume (name : JString)
  /-- `tar` unpacks the archive into a volume. -/
  | extract (volume image : JString) (archive : Path)
  /-- `restore.compose.yaml`, with the volume's name. -/
  | writeOverride (volume : JString)
  /-- `docker compose up` of the rehearsal stack. -/
  | upRestored
  /-- `smoke.mjs verify` against it. -/
  | smokeVerify

/-- What a call answers. -/
@[reducible] def Call.Ret : Call → Type
  | .config => Reply Images
  | .now => Int
  | .ps _ | .imageId _ | .hash _ => Reply JString
  | .inspect _ => Reply Details
  | .readManifest _ => Reply Manifest
  | .makeOutput | .makeLock | .removeLock | .stop .. | .drain | .startTar .. | .exitTar _
  | .writeManifest .. | .up | .createVolume _ | .extract .. | .writeOverride _ | .upRestored
  | .smokeVerify => Reply Unit

/-- A script that throws texts. -/
abbrev Js (α : Type) := Program Call Call.Ret JString Unit α

-- Each call, which throws where it has failed.

def config : Js Images := Program.make .config >>= await
def makeOutput : Js Unit := Program.make .makeOutput >>= await
def makeLock : Js Unit := Program.make .makeLock >>= await
def removeLock : Js Unit := Program.make .removeLock >>= await
def now : Js Int := Program.make Call.now
def ps (service : Service) : Js JString := Program.make (.ps service) >>= await
def inspect (container : JString) : Js Details := Program.make (.inspect container) >>= await
def imageId (image : JString) : Js JString := Program.make (.imageId image) >>= await
def stop (service : Service) (seconds : Nat) : Js Unit := Program.make (.stop service seconds) >>= await
def drain : Js Unit := Program.make .drain >>= await
def startTar (volume image : JString) (destination : Path) : Js Unit :=
  Program.make (.startTar volume image destination) >>= await
def exitTar (destination : Path) : Js Unit := Program.make (.exitTar destination) >>= await
def hash (path : Path) : Js JString := Program.make (.hash path) >>= await
def writeManifest (path : Path) (manifest : Manifest) : Js Unit :=
  Program.make (.writeManifest path manifest) >>= await
def readManifest (path : Path) : Js Manifest := Program.make (.readManifest path) >>= await
def up : Js Unit := Program.make .up >>= await
def createVolume (name : JString) : Js Unit := Program.make (.createVolume name) >>= await
def extract (volume image : JString) (archive : Path) : Js Unit :=
  Program.make (.extract volume image archive) >>= await
def writeOverride (volume : JString) : Js Unit := Program.make (.writeOverride volume) >>= await
def upRestored : Js Unit := Program.make .upRestored >>= await
def smokeVerify : Js Unit := Program.make .smokeVerify >>= await

/-! ## `local-backup` -/

/-- `resolve('.local/backups')`. -/
def outputDirectory : JString := utf16 ".local/backups"

/-- `local-${new Date().toISOString().replace(/[:.]/g, '-')}`. -/
def backupId (time : Int) : JString := utf16 "local-" ++ dashedISOString time

/-- The archive of a backup. -/
def destination (id : JString) : Path := ⟨outputDirectory, id ++ utf16 ".tar.gz"⟩

/-- `${path}.json`. -/
def Path.json (path : Path) : Path := ⟨path.directory, path.name ++ utf16 ".json"⟩

/-- The manifest of an archive. -/
def manifest (images : Images) (cassandra graph : Details) (id createdAt sha256 : JString) : Manifest where
  format := some 2
  id := some id
  createdAt := some createdAt
  environment := some (utf16 "local")
  cassandraImage := some images.cassandra
  cassandraImageId := some cassandra.image
  janusgraphImage := some images.janusgraph
  janusgraphImageId := some graph.image
  graphKeyspace := some (utf16 "cartyx_graph")
  stateKeyspace := some (utf16 "cartyx_state")
  method := some (utf16 "drained-and-stopped-full-data-directory")
  file := some (destination id).name
  sha256 := some sha256
  credentials := some (utf16 "separate recovery copy of .local/data/local is required")

/-- From the stopping of the databases to the manifest. -/
def archive (images : Images) (cassandra graph : Details) (volume id : JString) : Js Unit := do
  stop .janusgraph 60
  drain
  stop .cassandra 180
  startTar volume images.cassandra (destination id)
  exitTar (destination id)
  let createdAt ← now
  let sha256 ← hash (destination id)
  writeManifest (destination id).json (manifest images cassandra graph id (toISOString createdAt) sha256)

/-- `local-backup`, with the lock. -/
def localBackup (images : Images) : Js Unit := do
  let time ← now
  let container ← ps .cassandra
  throwIf container.isEmpty (utf16 "Local Cassandra must be running for a drained backup")
  let details ← inspect container
  match details.volume with
    | none => fail (utf16 "Cassandra data must use a named volume")
    | some volume => do
      throwIf (details.configImage != images.cassandra)
        (utf16 "Unexpected Cassandra image; update/rehearse backup compatibility first")
      let graphContainer ← ps .janusgraph
      let graph ← inspect graphContainer
      throwIf (graph.configImage != images.janusgraph) (utf16 "Unexpected JanusGraph image")
      Program.tryFinally (archive images details graph volume (backupId time)) up

/-! ## `local-restore` -/

/-- `image.includes('@sha256:')`. -/
def pinned (image : JString) : Bool := decide (utf16 "@sha256:" <:+: image)

/-- The images' part of the check: an image that is not pinned must have the manifest's id. -/
def otherId (image : JString) (id : Option JString) : Js Bool :=
  if pinned image then pure false
  else do
    let current ← imageId image
    pure (id != some current)

/-- The condition of the check, from left to right. -/
def incompatible (images : Images) (manifest : Manifest) : Js Bool :=
  if manifest.format != some 2 || manifest.cassandraImage != some images.cassandra ||
      manifest.janusgraphImage != some images.janusgraph then pure true
  else do
    let cassandra ← otherId images.cassandra manifest.cassandraImageId
    if cassandra then pure true
    else do
      let graph ← otherId images.janusgraph manifest.janusgraphImageId
      pure (graph || manifest.environment != some (utf16 "local"))

/-- `basename(path)`. -/
def basename (path : JString) : JString := (path.rdropWhile (· == 0x2F)).rtakeWhile (· != 0x2F)

/-- `cartyx-restore-${Date.now()}`. -/
def volumeName (time : Int) : JString := utf16 "cartyx-restore-" ++ utf16 (toString time)

/-- From the checksum on. -/
def restoreArchive (images : Images) (archive : Path) (sha256 : Option JString) : Js Unit := do
  let digest ← hash archive
  throwIf (some digest != sha256) (utf16 "Backup checksum mismatch")
  let time ← now
  createVolume (volumeName time)
  extract (volumeName time) images.cassandra archive
  writeOverride (volumeName time)
  upRestored
  smokeVerify

/-- `local-restore`, with the lock. -/
def localRestore (images : Images) : Option Path → Js Unit
  | none => fail (utf16 "Pass an archive manifest (.tar.gz.json)")
  | some manifestPath => do
    let manifest ← readManifest manifestPath
    let other ← incompatible images manifest
    throwIf other (utf16 "Only matching-version local archives are supported by this rehearsal")
    match manifest.file with
      | none => fail (utf16 "The \"path\" argument must be of type string")
      | some file => do
        throwIf (basename file != file) (utf16 "Invalid archive filename")
        restoreArchive images ⟨manifestPath.directory, file⟩ manifest.sha256

/-! ## A run -/

/-- The arguments of a run. -/
inductive Mode
  | localBackup
  | localRestore (input : Option Path)
  | other

/-- What is done by the mode. -/
def operation (images : Images) : Mode → Js Unit
  | .localBackup => localBackup images
  | .localRestore input => localRestore images input
  | .other => fail (utf16 "Usage: backup.mjs local-backup | local-restore <manifest.tar.gz.json>")

/-- The script. -/
def main (mode : Mode) : Js Unit := do
  let images ← config
  makeOutput
  makeLock
  Program.tryFinally (operation images mode) removeLock

end CartyxInfra.Local
