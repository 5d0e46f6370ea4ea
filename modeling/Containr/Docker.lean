import Containr.Path
import Containr.Store

/-!
# `DockerContainerManager` of `containr-runtime/src/docker.rs`

`create_container` seeds the managed mounts, creates the container under its
configured name, attaches the extra networks and starts it; each of these is a
request of its own. Stopping and removing only log their errors.
-/

namespace Containr

open Containr.Effect

/-- The name of the container `try_seed_bind_mount` reads an image through. -/
def seedHelperName (containerId : String) : String := containerId ++ "-seed"

def trimEndSlashes (text : String) : String :=
  String.ofList ((text.toList.reverse.dropWhile (· = '/')).reverse)

/-- `source.with_file_name(".{name}.seed.tar")`. -/
def seedArchivePath (source name : String) : String :=
  let parent := (Path.segments source.toList).reverse.dropWhile Path.skipped |>.drop 1 |>.reverse
  Path.join (Text.join "/" (parent.map String.ofList)) ("." ++ name ++ ".seed.tar")

def copySeed (helper image target archive source : String) : Fallible Bool := do
  ignore (docker (.removeContainer helper))
  let _ ← docker (.createContainer helper (.seed image))
  let downloaded : Except String Bool ← liftM (external (.downloadPath helper target archive))
  ignore (docker (.removeContainer helper))
  match downloaded with
  | .ok true =>
      let unpacked : Except String Bool ← liftM (external (.unpackSeedArchive archive source))
      ignore (ExceptT.mk (external (.removeFile archive)))
      ExceptT.mk (.pure unpacked)
  | .ok false =>
      ignore (ExceptT.mk (external (.removeFile archive)))
      return false
  | .error message =>
      ignore (ExceptT.mk (external (.removeFile archive)))
      throw message

def trySeedBindMount (containerId image : String) (mount : DockerBindMount) : Fallible Bool := do
  let target := trimEndSlashes mount.target
  if !Text.startsWith target "/" || target.utf8ByteSize < 2 then
    return false
  let isEmpty ← ExceptT.mk (external (.dirIsEmpty mount.source))
  if !isEmpty then
    return false
  match Path.fileName mount.source with
  | none => return false
  | some name =>
      let archive := seedArchivePath mount.source name
      copySeed (seedHelperName containerId) image target archive mount.source

def seedBindMount (containerId image : String) (mount : DockerBindMount) : Sys Unit :=
  ignore (trySeedBindMount containerId image mount)

def connectNetworks (container : Nat) (networks : List DockerNetworkAttachment) : Fallible Unit :=
  ExceptT.mk (Program.forEach (fun network => external (.connectNetwork network container)) networks)

/-- Returns the name the container is known by, `DockerContainerInfo::id`. -/
def createContainerAs (body : ContainerBody) (config : DockerContainerConfig) :
    Fallible String := do
  Program.forAll (seedBindMount config.id config.image) (config.mounts.filter (·.seedFromImage))
  let container ← docker (.createContainer config.id body)
  connectNetworks container config.additionalNetworks
  docker (.startContainer container)
  return config.id

def createContainer (config : DockerContainerConfig) : Fallible String :=
  createContainerAs (.service config) config

def isRunning (id : String) : Sys Bool :=
  (docker (.inspectContainer id)).run.bind fun result =>
    .pure (match result with
      | .ok container => container.running
      | .error _ => false)

def stopContainer (id : String) : Sys Unit := ignore (docker (.stopContainer id))

def removeContainer (id : String) : Sys Unit := do
  stopContainer id
  ignore (docker (.removeContainer id))

end Containr
