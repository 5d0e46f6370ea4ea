import Containr.Store
import Containr.Path

/-!
# Queueing a deployment, `containr-api/src/handlers/deployments.rs`

`queue_deployment` saves the new record, sends its job and then, on request,
marks every other unfinished deployment of the app `Stopped`. The token of
`resolve_remote_git_token` comes from the stored github settings and the github
api; it is one answer of the environment here.
-/

namespace Containr.Api

open Containr.Effect

def deploymentSourceUrl : DeploymentSource → String
  | .remoteGit url _ => url
  | .localPath path => path
  | .none => ""

/-- The text `://` occurs. -/
def hasScheme (source : String) : Bool :=
  source.toList.tails.any fun rest => [':', '/', '/'].isPrefixOf rest

def isLocalSourcePath (source : String) : Sys Bool :=
  if Text.blank source || hasScheme source then .pure false
  else if Path.isAbsolute source then .pure true
  else external (.pathExists source)

def resolveSourceDeploymentSource (ownerId : Uuid) (sourceUrl : String) :
    Handler DeploymentSource := do
  if ← isLocalSourcePath sourceUrl then
    return .localPath sourceUrl
  let token ← ExceptT.mk (external (.remoteGitToken ownerId sourceUrl))
  return .remoteGit sourceUrl token

def resolveAppDeploymentSource (ownerId : Uuid) (app : App) : Handler DeploymentSource := do
  if !app.requiresSourceCheckout then
    return .none
  if Text.blank app.githubUrl then
    throw ⟨400, "github_url is required when a service needs source checkout"⟩
  resolveSourceDeploymentSource ownerId app.githubUrl

def stopRow (row : ServiceDeployment) : Sys ServiceDeployment :=
  if row.status.inProgress then do
    let now ← utcNow
    return { row with status := .stopped, finishedAt := some now, containerId := none }
  else .pure row

def stopRows : List ServiceDeployment → Sys (List ServiceDeployment)
  | [] => .pure []
  | row :: rest => do
      let stopped ← stopRow row
      let others ← stopRows rest
      return stopped :: others

def stoppedClone (deployment : Deployment) (now : Time) (rows : List ServiceDeployment) :
    Deployment :=
  { deployment with
    status := .stopped
    finishedAt := some now
    serviceDeployments := rows }

def isStale (replacementId : Uuid) (deployment : Deployment) : Bool :=
  deployment.id ≠ replacementId && deployment.status.inProgress

def supersede (replacementId : Uuid) (deployment : Deployment) : Handler Unit := do
  let now ← utcNow
  let rows ← stopRows deployment.serviceDeployments
  orInternal (Store.appendDeploymentLog deployment.id
    ("deployment superseded by " ++ replacementId.toString))
  orInternal (Store.saveDeployment (stoppedClone deployment now rows))
  ExceptT.mk (Program.forEach (fun row => (orInternal (Store.saveServiceDeployment row)).run) rows)

def supersedeStaleDeployments (appId replacementId : Uuid) : Handler Unit := do
  let deployments ← orInternal (Store.listDeploymentsByApp appId)
  ExceptT.mk (Program.forEach (fun deployment => (supersede replacementId deployment).run)
    (deployments.filter (isStale replacementId)))

/-- The arguments of `queue_deployment`. -/
structure DeploymentRequest where
  ownerId : Uuid
  app : App
  commitSha : String
  commitMessage : Option String
  branch : String
  rolloutStrategy : RolloutStrategy
  rollbackFromDeploymentId : Option Uuid
  sourceOverride : Option DeploymentSource
  cleanupStaleDeployments : Bool
  localBuildServiceId : Option Uuid
deriving DecidableEq, Repr

namespace DeploymentRequest

def deployment (request : DeploymentRequest) (id : Uuid) (now : Time) (source : DeploymentSource) :
    Deployment :=
  { Deployment.new id now request.app.id request.commitSha with
    commitMessage := request.commitMessage
    branch := request.branch
    sourceUrl :=
      if (deploymentSourceUrl source).isEmpty then none else some (deploymentSourceUrl source)
    rolloutStrategy := request.rolloutStrategy
    rollbackFromDeploymentId := request.rollbackFromDeploymentId
    appSnapshot := some request.app }

def job (request : DeploymentRequest) (id : Uuid) (source : DeploymentSource) : DeploymentJob where
  deploymentId := id
  appId := request.app.id
  commitSha := request.commitSha
  commitMessage := request.commitMessage
  branch := request.branch
  source := source
  rolloutStrategy := request.rolloutStrategy
  rollbackFromDeploymentId := request.rollbackFromDeploymentId
  localBuildServiceId := request.localBuildServiceId

end DeploymentRequest

def requestSource (request : DeploymentRequest) : Handler DeploymentSource :=
  match request.sourceOverride with
  | some source => pure source
  | none => resolveAppDeploymentSource request.ownerId request.app

def enqueueJob (request : DeploymentRequest) (id : Uuid) (source : DeploymentSource) :
    Handler Unit := do
  let sent : Except String Unit ← liftM (sendJob (request.job id source)).run
  match sent with
  | .ok () => return ()
  | .error _ =>
      ignore (Store.deleteDeployment id)
      throw internalError

/-- Only supersedes once the replacement is actually queued. -/
def cleanupStale (request : DeploymentRequest) (id : Uuid) : Sys Unit :=
  if request.cleanupStaleDeployments then ignore (supersedeStaleDeployments request.app.id id)
  else .pure ()

def queueDeployment (request : DeploymentRequest) : Handler Deployment := do
  let source ← requestSource request
  let id ← newUuid
  let now ← utcNow
  orInternal (Store.saveDeployment (request.deployment id now source))
  enqueueJob request id source
  cleanupStale request id
  return request.deployment id now source

end Containr.Api
