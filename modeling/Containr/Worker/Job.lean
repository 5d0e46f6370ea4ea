import Containr.Worker.Rollout

/-!
# `process_job` and `run` of `containr-runtime/src/worker.rs`

`handleJob` is the body of the loop of `run`: it processes the job, removes an
uploaded source and marks a failed deployment, unless it was superseded.
-/

namespace Containr.Worker

open Containr.Effect

def resolveDeploymentApp (currentApp : App) (deployment : Deployment)
    (rollbackSource : Option Deployment) : App :=
  ((rollbackSource.bind (·.appSnapshot)).orElse fun _ => deployment.appSnapshot).getD currentApp

def loadRollbackSource (job : DeploymentJob) : Fallible (Option Deployment) := do
  let some sourceId := job.rollbackFromDeploymentId | return none
  let some source ← Store.getDeployment sourceId | throw "rollback source deployment not found"
  ensure (source.appId = job.appId) "rollback source does not belong to app"
  return some source

def checkoutSource (runtime : Runtime) (job : DeploymentJob) (deployment : Deployment) :
    Fallible (Option String) := do
  if job.source = .none then
    return none
  updateStatus deployment .cloning
  let path ← cloneRepo runtime job
  return some path

def removeCheckout (repoPath : Option String) : Sys Unit :=
  match repoPath with
  | some path => removeDirAll path
  | none => .pure ()

/-- The images of a job that is not a rollback. `none`: the job was superseded. -/
def sourceImages (runtime : Runtime) (job : DeploymentJob) (deployment : Deployment)
    (effectiveApp : App) : Fallible (Option ServiceImages) := do
  let repoPath ← checkoutSource runtime job deployment
  if !(← shouldContinueDeployment deployment.id
      "deployment skipped: superseded after source checkout") then
    removeCheckout repoPath
    return none
  updateStatus deployment .building
  let images ← buildServiceImages effectiveApp deployment repoPath job.commitSha
    job.localBuildServiceId
  removeCheckout repoPath
  if !(← shouldContinueDeployment deployment.id
      "deployment skipped: superseded after image build") then
    return none
  return some images

def jobImages (runtime : Runtime) (job : DeploymentJob) (deployment : Deployment)
    (effectiveApp : App) : Option Deployment → Fallible (Option ServiceImages)
  | some source => do
      ignore (Store.appendDeploymentLog deployment.id
        ("rollback: using service snapshot from deployment " ++ source.id.toString))
      let images ← ExceptT.mk (.pure (resolveRollbackServiceImages effectiveApp source))
      return some images
  | none => sourceImages runtime job deployment effectiveApp

def sharedEnvVars (app : App) : List (String × String) :=
  app.envVars.foldl (fun env var => insertEnv env var.key var.value) []

def startDeployment (runtime : Runtime) (job : DeploymentJob) (deployment : Deployment)
    (effectiveApp : App) (images : ServiceImages) (isRollback : Bool) : Fallible Unit := do
  updateStatus deployment .starting
  if !(← shouldContinueDeployment deployment.id
      "deployment skipped: superseded before rollout") then
    return ()
  ExceptT.mk (external (.createNetwork effectiveApp.networkName))
  deployServices runtime effectiveApp deployment effectiveApp.networkName images
    (sharedEnvVars effectiveApp) job.rolloutStrategy isRollback

def processJob (runtime : Runtime) (job : DeploymentJob) : Fallible Unit := do
  let some deployment ← Store.getDeployment job.deploymentId | throw "deployment not found"
  ensure (deployment.appId = job.appId) "deployment app mismatch"
  if !(← shouldContinueDeployment deployment.id
      "deployment skipped: superseded before execution") then
    return ()
  let some currentApp ← Store.getApp job.appId | throw "app not found"
  let rollbackSource ← loadRollbackSource job
  let effectiveApp := resolveDeploymentApp currentApp deployment rollbackSource
  let some images ← jobImages runtime job deployment effectiveApp rollbackSource | return ()
  startDeployment runtime job deployment effectiveApp images rollbackSource.isSome

def cleanupUploadedSource (runtime : Runtime) (job : DeploymentJob) : Sys Unit :=
  match job.source with
  | .localPath path =>
      if isUploadedSource runtime.workDir path then removeDirAll path else .pure ()
  | .remoteGit _ _ | .none => .pure ()

/-- The failure mark of `run`. -/
def markFailed (deploymentId : Uuid) (message : String) : Sys Unit := do
  match ← (Store.getDeployment deploymentId).run with
  | .ok (some deployment) =>
      if deployment.status = .stopped then return ()
      let now ← utcNow
      ignore (Store.appendDeploymentLog deployment.id ("error: " ++ message))
      ignore (Store.saveDeployment { deployment with
        status := .failed
        finishedAt := some now })
  | .ok none | .error _ => return ()

def handleJob (runtime : Runtime) (job : DeploymentJob) : Sys Unit := do
  let result ← (processJob runtime job).run
  cleanupUploadedSource runtime job
  storeFlag .running false
  match result with
  | .ok () => return ()
  | .error message => markFailed job.deploymentId message

/-- The flag is set before the pause is checked again. `false` when the fuel ran
out while deployments were paused. -/
def beginDeployment : Nat → Sys Bool
  | 0 => .pure false
  | fuel + 1 => do
      storeFlag .running true
      if !(← loadFlag .paused) then
        return true
      storeFlag .running false
      beginDeployment fuel

/-- `patience` bounds the waits for a resume, `fuel` the jobs taken. -/
def run (runtime : Runtime) (patience : Nat) : Nat → Sys Unit
  | 0 => .pure ()
  | fuel + 1 => do
      match ← receiveJob with
      | none => return ()
      | some job =>
          if ← beginDeployment patience then
            handleJob runtime job
            run runtime patience fuel

def demoRuntime : Runtime := ⟨"/srv/builds", none, false, fun _ payload => .ok payload⟩

def demoService : ContainerService := ContainerService.new ⟨2⟩ 0 ⟨1⟩ "web" "nginx:1" 80

def demoApp : App where
  id := ⟨1⟩
  name := "demo"
  githubUrl := ""
  branch := "main"
  domains := []
  envVars := []
  autoDeployEnabled := true
  autoDeployWatchPaths := []
  autoDeployCleanupStaleDeployments := true
  deployWebhookToken := some "token"
  port := 80
  services := [demoService]
  rolloutStrategy := .startFirst
  ownerId := ⟨3⟩
  createdAt := 0
  updatedAt := 0

def demoDeployment : Deployment :=
  { Deployment.new ⟨10⟩ 0 ⟨1⟩ "main" with
    rolloutStrategy := .startFirst
    appSnapshot := some demoApp }

def demoJob : DeploymentJob where
  deploymentId := ⟨10⟩
  appId := ⟨1⟩
  commitSha := "main"
  commitMessage := none
  branch := "main"
  source := .none
  rolloutStrategy := .startFirst
  rollbackFromDeploymentId := none
  localBuildServiceId := none

def demoWorld : World :=
  { World.empty with
    db := { Database.empty with
      apps := [{ demoApp with services := [] }]
      services := [demoService]
      deployments := [demoDeployment] }
    issued := [⟨1⟩, ⟨2⟩, ⟨3⟩, ⟨10⟩] }

end Containr.Worker
