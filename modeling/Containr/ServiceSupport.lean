import Containr.Docker

/-!
# `containr-runtime/src/service_support.rs`

Turns a service definition into the mounts, ports and credentials of a
container. `decrypt` is the cipher of `containr-common/src/crypto.rs` with the
key derivation already applied; it is a parameter of the runtime.
-/

namespace Containr

open Containr.Effect

/-- What `DeploymentWorker` is constructed with. -/
structure Runtime where
  workDir : String
  encryptionSecret : Option String
  proxyUpdates : Bool
  decrypt : (secret payload : String) → Except String String

def sharedMountsDir : String := "shared"

def configFilesDir : String := ".files"

def mountHostPath (mount : ServiceMount) : Option String :=
  (mount.hostPath.map Text.trim).filter fun path => !path.isEmpty

def mountSource (mountsRoot sharedRoot : String) (mount : ServiceMount) : Fallible String := do
  match mountHostPath mount with
  | some hostPath =>
      ensure (Path.isAbsolute hostPath)
        ("host path " ++ hostPath ++ " for mount " ++ mount.name ++ " must be absolute")
      let present ← liftM (external (.pathExists hostPath))
      if !present then
        ExceptT.mk (external (.createDirAll hostPath))
      return hostPath
  | none =>
      let root := if mount.isShared then sharedRoot else mountsRoot
      let source ← ExceptT.mk (external (.absolute (Path.join root mount.name)))
      ExceptT.mk (external (.createDirAll source))
      return source

def bindMounts (mountsRoot sharedRoot : String) : List ServiceMount → Fallible (List DockerBindMount)
  | [] => pure []
  | mount :: rest => do
      let source ← mountSource mountsRoot sharedRoot mount
      let others ← bindMounts mountsRoot sharedRoot rest
      pure (⟨source, mount.target, mount.readOnly, (mountHostPath mount).isNone⟩ :: others)

def configFileSource (dir : String) (index : Nat) (file : ConfigFile) : String :=
  Path.join dir (toString index ++ "-" ++ (Path.fileName file.path).getD "file")

def fileMounts (dir : String) : Nat → List ConfigFile → Fallible (List DockerBindMount)
  | _, [] => pure []
  | index, file :: rest => do
      let source := configFileSource dir index file
      ExceptT.mk (external (.writeFile source file.content))
      ExceptT.mk (external (.setPermissions source 0o644))
      let others ← fileMounts dir (index + 1) rest
      pure (⟨source, file.path, true, false⟩ :: others)

def configFileMounts (dir : String) (service : ContainerService) :
    Fallible (List DockerBindMount) := do
  if service.files.isEmpty then
    return []
  ExceptT.mk (external (.createDirAll dir))
  ExceptT.mk (external (.setPermissions dir 0o755))
  fileMounts dir 0 service.files

def writeConfigFiles (mountsRoot : String) (service : ContainerService) :
    Fallible (List DockerBindMount) := do
  let dir ← ExceptT.mk (external (.absolute (Path.join mountsRoot configFilesDir)))
  let removed : Except FileError Unit ← liftM (external (.removeDirAll dir))
  match removed with
  | .ok () | .error .notFound => configFileMounts dir service
  | .error (.other message) => throw message

def buildServiceMounts (workDir : String) (appId : Uuid) (service : ContainerService) :
    Fallible (List DockerBindMount) := do
  let appRoot := Path.join (Path.join workDir "app-mounts") appId.toString
  let mountsRoot := Path.join appRoot service.id.toString
  let sharedRoot := Path.join appRoot sharedMountsDir
  let mounts ← bindMounts mountsRoot sharedRoot service.mounts
  let files ← writeConfigFiles mountsRoot service
  return mounts ++ files

def dockerHubHost : String := "docker.io"

def normalizeRegistryHost (server : String) : String :=
  let trimmed := Text.trim server
  let withoutScheme :=
    ((Text.stripFront trimmed "https://").orElse fun _ =>
      Text.stripFront trimmed "http://").getD trimmed
  let host := Text.toAsciiLowercase (String.ofList (withoutScheme.toList.takeWhile (· ≠ '/')))
  if host ∈ ["", "docker.io", "index.docker.io", "registry-1.docker.io",
      "registry.hub.docker.com"] then dockerHubHost else host

def imageRegistryHost (image : String) : String :=
  match Text.splitOnce '/' (Text.trim image) with
  | none => dockerHubHost
  | some (first, _) =>
      if first.toList.contains '.' || first.toList.contains ':' || first = "localhost" then
        normalizeRegistryHost first
      else dockerHubHost

def ContainerRegistry.matchesImage (registry : ContainerRegistry) (image : String) : Bool :=
  normalizeRegistryHost registry.server = imageRegistryHost image

def isDockerHubHost (host : String) : Bool := normalizeRegistryHost host = dockerHubHost

def decryptStoredSecret (runtime : Runtime) (value : String) : Except String String :=
  let trimmed := Text.trim value
  match Text.stripFront trimmed "enc:" with
  | none => .ok trimmed
  | some payload =>
      match runtime.encryptionSecret with
      | none => .error "encryption key is not configured"
      | some secret =>
          match runtime.decrypt secret payload with
          | .ok plain => .ok plain
          | .error message => .error ("failed to decrypt registry password: " ++ message)

def resolveRegistryCredentials (runtime : Runtime) (ownerId : Uuid) (service : ContainerService)
    (image : String) : Fallible (Option RegistryCredentials) := do
  match service.registryAuth with
  | some auth =>
      let password ← ExceptT.mk (.pure (decryptStoredSecret runtime auth.password))
      return some ⟨auth.server, auth.username, password⟩
  | none =>
      let registries ← Store.listRegistriesByOwner ownerId
      let some registry := registries.find? (·.matchesImage image) | return none
      let password ← ExceptT.mk (.pure (decryptStoredSecret runtime registry.passwordEnc))
      -- docker hub credentials must use the default index address
      let server := if isDockerHubHost registry.server then none else some registry.server
      return some ⟨server, registry.username, password⟩

def servicePortMappings (service : ContainerService) (replicaIndex : Nat) :
    List DockerPortMapping :=
  if replicaIndex ≠ 0 then []
  else service.portMappings.map fun mapping =>
    ⟨mapping.hostPort, mapping.containerPort, mapping.protocol.asStr⟩

def shouldPullServiceImage (service : ContainerService) (image : String) : Bool :=
  let configured := Text.trim service.image
  !configured.isEmpty && configured = Text.trim image

end Containr
