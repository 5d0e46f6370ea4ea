import Containr.ServiceSupport
import Containr.TopologicalSort

/-!
# Names, status, checkout and images of `containr-runtime/src/worker.rs`
-/

namespace Containr.Worker

open Containr.Effect

def uploadsDirName : String := "uploads"

def isUploadedSource (workDir path : String) : Bool :=
  let uploads := Path.join workDir uploadsDirName
  Path.startsWith path uploads && Path.components path ≠ Path.components uploads &&
    !Path.mentionsParent path

def shortDeploymentId (deploymentId : Uuid) : String := Text.takeChars 8 deploymentId.simple

def commitTagPrefix (commitSha : String) : String :=
  let allowed := commitSha.toList.filter fun ch =>
    Text.isAsciiAlphanumeric ch || ch = '_' || ch = '.' || ch = '-'
  let front := (allowed.dropWhile fun ch => ch = '.' || ch = '-').take 8
  if front.isEmpty then "source" else String.ofList front

def looksLikeCommitSha (value : String) : Bool :=
  7 ≤ value.utf8ByteSize && value.utf8ByteSize ≤ 40 && value.toList.all Text.isAsciiHexdigit

def sanitizeImageSuffix (value : String) : String :=
  let sanitized := value.toList.map fun ch =>
    if Text.isAsciiAlphanumeric ch || ch = '-' || ch = '_' then ch else '-'
  if sanitized.isEmpty then "service" else String.ofList sanitized

def containerName (app : App) (service : ContainerService) (replica : Nat) (deploymentId : Uuid) :
    String :=
  "containr-" ++ app.id.toString ++ "-" ++ service.name ++ "-" ++ toString replica ++ "-" ++
    shortDeploymentId deploymentId

def serviceNetworkAliases (serviceName : String) (replica : Nat) : List String :=
  [serviceName, serviceName ++ "-" ++ toString replica]

def updateStatus (deployment : Deployment) (status : DeploymentStatus) : Fallible Unit := do
  let now ← utcNow
  ignore (Store.appendDeploymentLog deployment.id
    ("[" ++ Text.formatTimestamp now ++ "] status: " ++ status.debug))
  Store.saveDeployment { deployment with status := status }

def shouldContinueDeployment (deploymentId : Uuid) (message : String) : Fallible Bool := do
  match ← Store.getDeployment deploymentId with
  | none => return false
  | some deployment =>
      if deployment.status = .stopped then
        ignore (Store.appendDeploymentLog deploymentId message)
        return false
      return true

def sendProxyRefresh (runtime : Runtime) (appId : Uuid) : Sys Unit :=
  if runtime.proxyUpdates then (external (.sendProxyRefresh appId)).bind fun _ => .pure ()
  else .pure ()

def git (token directory : Option String) (arguments : List String) : Fallible String :=
  ExceptT.mk (external (.git token directory arguments))

def fetchCommit (token : Option String) (repo sha : String) : Fallible String := do
  ensure (sha.utf8ByteSize = 40) "short sha not present in shallow clone"
  let _ ← git token (some repo) ["fetch", "--depth", "1", "origin", sha]
  return sha

def checkoutCommit (token : Option String) (repo sha : String) : Fallible Unit := do
  let head ← git token (some repo) ["rev-parse", "HEAD"]
  if Text.startsWith head sha then
    return ()
  let verified ← liftM (git token (some repo)
    ["rev-parse", "--verify", "--quiet", sha ++ "^\x7bcommit\x7d"]).run
  let target ← match verified with
    | .ok full => pure full
    | .error _ => fetchCommit token repo sha
  let _ ← git token (some repo) ["checkout", "--force", "--detach", target]
  return ()

def gitToken : DeploymentSource → Option String
  | .remoteGit _ token => token
  | .localPath _ | .none => none

def removeDirAll (path : String) : Sys Unit :=
  (external (.removeDirAll path)).bind fun _ => .pure ()

/-- A commit that cannot be checked out is only logged. -/
def checkoutRequested (token : Option String) (repo commitSha : String) : Sys Unit :=
  if looksLikeCommitSha commitSha then ignore (checkoutCommit token repo commitSha) else .pure ()

def cloneFrom (job : DeploymentJob) (repoPath sourceUrl : String) : Fallible String := do
  let token := gitToken job.source
  let cloned ← liftM (git token none ["clone", "--depth", "1", "--single-branch", "--branch",
    job.branch, "--", sourceUrl, repoPath]).run
  match cloned with
  | .error message => throw ("git clone failed: " ++ message)
  | .ok _ =>
      checkoutRequested token repoPath (Text.toAsciiLowercase (Text.trim job.commitSha))
      return repoPath

def cloneRepo (runtime : Runtime) (job : DeploymentJob) : Fallible String := do
  let repoPath := Path.join runtime.workDir (job.appId.toString ++ "_" ++
    commitTagPrefix job.commitSha ++ "_" ++ shortDeploymentId job.deploymentId)
  removeDirAll repoPath
  match job.source with
  | .none => throw "clone_repo called for deployment without source checkout"
  | .remoteGit url _ => cloneFrom job repoPath url
  | .localPath path =>
      if isUploadedSource runtime.workDir path then return path
      else cloneFrom job repoPath path

abbrev ServiceImages := List (Uuid × String)

def ServiceImages.insert (images : ServiceImages) (id : Uuid) (image : String) : ServiceImages :=
  upsert Prod.fst (id, image) images

def ServiceImages.get (images : ServiceImages) (id : Uuid) : Option String :=
  (lookup Prod.fst id images).map Prod.snd

theorem images_get_insert (images : ServiceImages) (id other : Uuid) (image : String) :
    (images.insert id image).get other = if other = id then some image else images.get other := by
  unfold ServiceImages.insert ServiceImages.get
  by_cases same : other = id
  · rw [if_pos same, same]
    have found := lookup_upsert_same Prod.fst (id, image) images
    exact congrArg (Option.map Prod.snd) found
  · rw [if_neg same]
    exact congrArg (Option.map Prod.snd) (lookup_upsert_other Prod.fst (id, image) images other same)

def resolveContextDockerfilePath (contextRel dockerfilePath : String) : Except String String :=
  if contextRel = "." then .ok dockerfilePath
  else
    match Path.stripFront dockerfilePath contextRel with
    | some stripped => .ok stripped
    | none =>
        if Path.isAbsolute dockerfilePath then .error "dockerfile path must be relative"
        else .ok dockerfilePath

def buildArgsMap (service : ContainerService) : List (String × String) :=
  service.buildArgs.foldl (fun args arg => upsert Prod.fst (arg.key, arg.value) args) []

def serviceDockerfile (contextRel contextPath : String) (service : ContainerService) :
    Fallible (Option String) :=
  match service.dockerfilePath with
  | none => pure none
  | some path => do
      let dockerfile ← ExceptT.mk (.pure (resolveContextDockerfilePath contextRel path))
      let present : Bool ← liftM (external (.pathExists (Path.join contextPath dockerfile)))
      ensure present
        ("dockerfile " ++ dockerfile ++ " does not exist for service " ++ service.name)
      return some dockerfile

def resolveServiceBuildConfig (repoPath : String) (service : ContainerService) :
    Fallible ImageBuildConfig := do
  let contextRel := service.buildContext.getD "."
  let contextPath := Path.join repoPath contextRel
  let present : Bool ← liftM (external (.pathExists contextPath))
  ensure present ("build context " ++ contextRel ++ " does not exist for service " ++ service.name)
  let isDir : Bool ← liftM (external (.isDir contextPath))
  ensure isDir
    ("build context " ++ contextRel ++ " is not a directory for service " ++ service.name)
  let repoRoot ← ExceptT.mk (external (.canonicalize repoPath))
  let contextPath ← ExceptT.mk (external (.canonicalize contextPath))
  ensure (Path.startsWith contextPath repoRoot)
    ("build context " ++ contextRel ++ " escapes the repository for service " ++ service.name)
  let dockerfile ← serviceDockerfile contextRel contextPath service
  return ⟨contextPath, dockerfile, service.buildTarget, buildArgsMap service⟩

def configuredDockerfile (contextPath : String) (service : ContainerService) :
    Sys (Option String) :=
  match (service.dockerfilePath.map Text.trim).filter fun path =>
      !path.isEmpty && !Path.isAbsolute path && Path.descends path with
  | none => .pure none
  | some path => (external (.isFile (Path.join contextPath path))).bind fun (present : Bool) =>
      .pure (if present then some path else none)

def defaultDockerfile (contextPath : String) (service : ContainerService) : Fallible String := do
  let present : Bool ← liftM (external (.isFile (Path.join contextPath "Dockerfile")))
  ensure present ("uploaded source for service " ++ service.name ++ " has no Dockerfile")
  return "Dockerfile"

def resolveLocalBuildConfig (sourceRoot : String) (service : ContainerService) :
    Fallible ImageBuildConfig := do
  let contextPath ← ExceptT.mk (external (.canonicalize sourceRoot))
  let configured ← liftM (configuredDockerfile contextPath service)
  let dockerfile ← match configured with
    | some path => pure path
    | none => defaultDockerfile contextPath service
  return ⟨contextPath, some dockerfile, service.buildTarget, buildArgsMap service⟩

def serviceBuildCacheKey (service : ContainerService) (config : ImageBuildConfig) : String :=
  let args := service.buildArgs.map fun arg => arg.key ++ "=" ++ arg.value
  config.contextPath ++ "|" ++ config.dockerfile.getD "" ++ "|" ++ config.target.getD "" ++ "|" ++
    Text.join ";" (args.insertionSort fun left right => left.toList ≤ right.toList)

/-- The tag is cut at 128 bytes; every character of it is ASCII. -/
def imageName (app : App) (deployment : Deployment) (commitSha : String)
    (service : ContainerService) : String :=
  let tag := commitTagPrefix commitSha ++ "-" ++ shortDeploymentId deployment.id ++ "-" ++
    sanitizeImageSuffix service.name
  "containr/" ++ app.id.toString ++ ":" ++ Text.takeChars 128 tag

def imageSourceBefore (left right : Deployment) : Prop :=
  if left.status = .running then right.status = .running → right.createdAt ≤ left.createdAt
  else right.status ≠ .running ∧ right.createdAt ≤ left.createdAt

instance : DecidableRel imageSourceBefore := fun left right =>
  inferInstanceAs (Decidable (if left.status = .running then
    right.status = .running → right.createdAt ≤ left.createdAt
    else right.status ≠ .running ∧ right.createdAt ≤ left.createdAt))

def previousServiceImage (appId currentDeploymentId : Uuid) (service : ContainerService) :
    Fallible String := do
  let deployments ← Store.listDeploymentsByApp appId
  let candidates := (deployments.filter (·.id ≠ currentDeploymentId)).insertionSort imageSourceBefore
  let rows := candidates.flatMap (·.serviceDeployments)
  match (rows.find? fun row => row.serviceId = service.id && row.imageId.isSome).bind (·.imageId) with
  | some image => return image
  | none => throw ("service " ++ service.name ++
      " has no previously built image; deploy it from source first")

/-- The images chosen so far and the builds of this call by cache key. -/
structure Built where
  images : ServiceImages
  byKey : List (String × String)

def buildConfig (repoPath : Option String) (isLocalTarget : Bool) (service : ContainerService) :
    Fallible ImageBuildConfig :=
  match repoPath with
  | none => throw ("service " ++ service.name ++
      " requires source checkout but no source was provided")
  | some repoPath =>
      if isLocalTarget then resolveLocalBuildConfig repoPath service
      else resolveServiceBuildConfig repoPath service

def buildFromSource (app : App) (deployment : Deployment) (repoPath : Option String)
    (commitSha : String) (isLocalTarget : Bool) (built : Built) (service : ContainerService) :
    Fallible Built := do
  let config ← buildConfig repoPath isLocalTarget service
  let key := serviceBuildCacheKey service config
  match lookup Prod.fst key built.byKey with
  | some (_, existing) => return { built with images := built.images.insert service.id existing }
  | none =>
      let name := imageName app deployment commitSha service
      ignore (Store.appendDeploymentLog deployment.id
        ("building image for service " ++ service.name))
      let (lines, outcome) ← liftM (external (.buildImage name config))
      Program.forAll (fun line => ignore (Store.appendDeploymentLog deployment.id line)) lines
      ExceptT.mk (.pure outcome)
      return ⟨built.images.insert service.id name, upsert Prod.fst (key, name) built.byKey⟩

def buildServiceImage (app : App) (deployment : Deployment) (repoPath : Option String)
    (commitSha : String) (localBuildServiceId : Option Uuid) (built : Built)
    (service : ContainerService) : Fallible Built := do
  let isLocalTarget := localBuildServiceId = some service.id
  if localBuildServiceId.isSome && !isLocalTarget then
    -- siblings of a local build keep their configured or previous image
    let image ← if service.image.isEmpty then previousServiceImage app.id deployment.id service
      else pure service.image
    return { built with images := built.images.insert service.id image }
  if !isLocalTarget && !service.image.isEmpty then
    return { built with images := built.images.insert service.id service.image }
  buildFromSource app deployment repoPath commitSha isLocalTarget built service

def buildServiceImages (app : App) (deployment : Deployment) (repoPath : Option String)
    (commitSha : String) (localBuildServiceId : Option Uuid) : Fallible ServiceImages := do
  ensure (localBuildServiceId.all fun target => app.services.any (·.id = target))
    ("target service " ++ (localBuildServiceId.map Uuid.toString).getD "" ++
      " is not part of the app")
  let built ← app.services.foldlM
    (buildServiceImage app deployment repoPath commitSha localBuildServiceId) ⟨[], []⟩
  return built.images

def rollbackServiceImage (source : Deployment) (service : ContainerService) :
    Except String String :=
  match (source.serviceDeployments.find? fun row =>
      row.serviceId = service.id && row.imageId.isSome).bind (·.imageId) with
  | some image => .ok image
  | none =>
      if !service.image.isEmpty then .ok service.image
      else match source.imageId with
        | some image => .ok image
        | none => .error ("rollback source missing image artifact for service " ++ service.name)

def resolveRollbackServiceImages (app : App) (source : Deployment) :
    Except String ServiceImages :=
  app.services.foldlM (fun images service =>
    (rollbackServiceImage source service).map (images.insert service.id)) []

def primaryDeploymentImageId (images : ServiceImages) : Option String :=
  match (images.map (·.2)).dedup with
  | [only] => some only
  | _ => none

end Containr.Worker
