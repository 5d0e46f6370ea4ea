import Containr.Worker.Images

/-!
# `deploy_services` and `rollout_services` of `containr-runtime/src/worker.rs`

The two `&mut` arguments of `rollout_services` are the `Rollout` accumulator: the
caller still sees it after an error, which is how it knows what to clean up.
-/

namespace Containr.Worker

open Containr.Effect

structure Rollout where
  serviceDeployments : List ServiceDeployment
  newContainerIds : List String

namespace Rollout

def empty : Rollout := ⟨[], []⟩

def track (rollout : Rollout) (name : String) : Rollout :=
  { rollout with newContainerIds := rollout.newContainerIds.insert name }

def push (rollout : Rollout) (row : ServiceDeployment) : Rollout :=
  { rollout with serviceDeployments := rollout.serviceDeployments ++ [row] }

end Rollout

def getPreviousRunningDeployments (appId currentDeploymentId : Uuid) :
    Fallible (List Deployment) := do
  let deployments ← Store.listDeploymentsByApp appId
  return deployments.filter fun deployment =>
    deployment.id ≠ currentDeploymentId && deployment.status = .running

def recordedContainers (previous : List Deployment) : List ((Uuid × Nat) × String) :=
  (previous.flatMap (·.serviceDeployments)).filterMap fun row =>
    row.containerId.map fun container => ((row.serviceId, row.replicaIndex), container)

/-- `old_containers`: the first record of a replica wins. -/
def oldContainer (previous : List Deployment) (service : Uuid) (replica : Nat) : Option String :=
  (lookup Prod.fst (service, replica) (recordedContainers previous)).map Prod.snd

/-- `all_old_containers`. -/
def allOldContainers (previous : List Deployment) : List String :=
  ((recordedContainers previous).map Prod.snd).dedup

def insertEnv (env : List (String × String)) (key value : String) : List (String × String) :=
  upsert Prod.fst (key, value) env

def replicaEnv (shared : List (String × String)) (service : ContainerService) (replica : Nat) :
    List (String × String) :=
  let named := insertEnv (insertEnv shared "SERVICE_NAME" service.name)
    "REPLICA_INDEX" (toString replica)
  let ported := if service.port > 0 then insertEnv named "PORT" (toString service.port) else named
  service.envVars.foldl (fun env var => insertEnv env var.key var.value) ported

def healthCheckCommand (service : ContainerService) : Option HealthCheckCommand :=
  service.healthCheck.bind fun check =>
    if service.port = 0 then none
    else some ⟨["curl", "-f", "http://localhost:" ++ toString service.port ++ check.path],
      check.intervalSecs, check.timeoutSecs, check.retries⟩

def restartPolicyName : RestartPolicy → String
  | .never => "no"
  | .always => "always"
  | .onFailure => "on-failure"
  | .unlessStopped => "unless-stopped"

/-- Published host ports cannot be bound twice, so replicas that own host ports
are replaced stop-first under either strategy. -/
def replacedFirst (strategy : RolloutStrategy) (service : ContainerService) (replica : Nat) : Bool :=
  strategy = .stopFirst || !(servicePortMappings service replica).isEmpty

/-- The arguments `rollout_services` passes down unchanged. -/
structure Plan where
  runtime : Runtime
  app : App
  deployment : Deployment
  networkName : String
  images : ServiceImages
  sharedEnv : List (String × String)
  strategy : RolloutStrategy
  previous : List Deployment

namespace Plan

def name (plan : Plan) (service : ContainerService) (replica : Nat) : String :=
  containerName plan.app service replica plan.deployment.id

def config (plan : Plan) (service : ContainerService) (replica : Nat) (image : String)
    (mounts : List DockerBindMount) : DockerContainerConfig where
  id := plan.name service replica
  image := image
  envVars := replicaEnv plan.sharedEnv service replica
  port := service.port
  additionalPorts := service.additionalPorts
  portMappings := servicePortMappings service replica
  command := service.command
  entrypoint := service.entrypoint
  workingDir := service.workingDir
  memoryLimit := service.memoryLimit
  cpuLimit := service.cpuLimit
  network := some ⟨plan.networkName, serviceNetworkAliases service.name replica⟩
  mounts := mounts
  additionalNetworks := []
  healthCheck := healthCheckCommand service
  restartPolicy := restartPolicyName service.restartPolicy

def removeOld (plan : Plan) (service : ContainerService) (replica : Nat) : Sys Unit :=
  if replacedFirst plan.strategy service replica then
    match oldContainer plan.previous service.id replica with
    | some old => do
        stopContainer old
        removeContainer old
    | none => .pure ()
  else .pure ()

def pullServiceImage (plan : Plan) (service : ContainerService) (image : String) : Fallible Unit := do
  if shouldPullServiceImage service image then
    let credentials ← resolveRegistryCredentials plan.runtime plan.app.ownerId service image
    ignore (Store.appendDeploymentLog plan.deployment.id ("pulling service image " ++ image))
    ExceptT.mk (external (.pullImage image credentials))

def prepareReplica (plan : Plan) (service : ContainerService) (image : String) :
    Fallible (List DockerBindMount) := do
  plan.pullServiceImage service image
  buildServiceMounts plan.runtime.workDir plan.app.id service

def awaitHealth (service : ContainerService) (replica : Nat) (container : String) :
    Fallible Unit := do
  if service.healthCheck.isSome then
    let healthy ← ExceptT.mk (external (.waitForHealthy container 60))
    ensure healthy ("service " ++ service.name ++ " replica " ++ toString replica ++
      " failed health check")

def startReplica (service : ContainerService) (replica : Nat) (config : DockerContainerConfig) :
    Fallible String := do
  let container ← createContainer config
  awaitHealth service replica config.id
  return container

def saveServiceDeploymentBestEffort (row : ServiceDeployment) : Sys Unit :=
  ignore (Store.saveServiceDeployment row)

def replicaRow (plan : Plan) (service : ContainerService) (replica : Nat)
    (image container : String) (id : Uuid) (createdAt startedAt : Time) : ServiceDeployment :=
  { ServiceDeployment.new id createdAt service.id plan.deployment.id replica with
    containerId := some container
    imageId := some image
    status := .running
    startedAt := some startedAt }

def cronRow (plan : Plan) (service : ContainerService) (image : String) (id : Uuid)
    (createdAt : Time) : ServiceDeployment :=
  { ServiceDeployment.new id createdAt service.id plan.deployment.id 0 with
    imageId := some image
    status := .stopped }

/-- One round of the replica loop. The name is tracked before the create: a
failed start leaves a container. -/
def deployReplica (plan : Plan) (service : ContainerService) (image : String) (rollout : Rollout)
    (replica : Nat) : Sys (Except String Unit × Rollout) := do
  plan.removeOld service replica
  match ← (plan.prepareReplica service image).run with
  | .error message => return (.error message, rollout)
  | .ok mounts =>
      let tracked := rollout.track (plan.name service replica)
      match ← (startReplica service replica (plan.config service replica image mounts)).run with
      | .error message => return (.error message, tracked)
      | .ok container =>
          let id ← newUuid
          let createdAt ← utcNow
          let startedAt ← utcNow
          let row := plan.replicaRow service replica image container id createdAt startedAt
          saveServiceDeploymentBestEffort row
          return (.ok (), tracked.push row)

def registerCronJob (plan : Plan) (service : ContainerService) (image : String)
    (rollout : Rollout) : Sys (Except String Unit × Rollout) := do
  ignore (Store.appendDeploymentLog plan.deployment.id ("registered cron job " ++ service.name ++
    " on schedule " ++ service.schedule.getD ""))
  let id ← newUuid
  let createdAt ← utcNow
  let row := plan.cronRow service image id createdAt
  saveServiceDeploymentBestEffort row
  return (.ok (), rollout.push row)

def deployService (plan : Plan) (rollout : Rollout) (service : ContainerService) :
    Sys (Except String Unit × Rollout) :=
  match plan.images.get service.id with
  | none => .pure (.error ("missing image for service " ++ service.name), rollout)
  | some image =>
      if service.isCronJob then plan.registerCronJob service image rollout
      else Program.iterate (plan.deployReplica service image) (List.range service.replicas) rollout

def rolloutServices (plan : Plan) (sorted : List ContainerService) :
    Sys (Except String Unit × Rollout) :=
  Program.iterate plan.deployService sorted .empty

def undo (rollout : Rollout) : Sys Unit := do
  let created ← iterationOrder rollout.newContainerIds
  Program.forAll removeContainer created.val
  let finishedAt ← utcNow
  Program.forAll (fun row => ignore (Store.saveServiceDeployment
    { row with status := .failed, finishedAt := some finishedAt })) rollout.serviceDeployments

end Plan

def restoreAppServices (snapshot : App) : Fallible Unit := do
  let some current ← Store.getApp snapshot.id | throw "app not found"
  let now ← utcNow
  Store.saveApp { current with
    services := snapshot.services
    envVars := snapshot.envVars
    updatedAt := now }

/-- A rollback recreates the services of its snapshot before their records are saved. -/
def restoreIfRollback (snapshot : App) (isRollback : Bool) : Fallible Unit :=
  if isRollback then restoreAppServices snapshot else pure ()

def stoppedRow (finishedAt : Time) (row : ServiceDeployment) : ServiceDeployment :=
  { row with status := .stopped, finishedAt := some (row.finishedAt.getD finishedAt) }

/-- Works on a fresh copy: a rollback may have removed services since. -/
def markDeploymentStopped (deployment : Deployment) : Fallible Unit := do
  let finishedAt ← utcNow
  let loaded ← Store.getDeployment deployment.id
  let current := loaded.getD deployment
  Store.saveDeployment { current with
    status := .stopped
    finishedAt := some finishedAt
    serviceDeployments := current.serviceDeployments.map (stoppedRow finishedAt) }

def finishedDeployment (plan : Plan) (rows : List ServiceDeployment) (startedAt finishedAt : Time) :
    Deployment :=
  { plan.deployment with
    status := .running
    serviceDeployments := rows
    imageId := primaryDeploymentImageId plan.images
    appSnapshot := some plan.app
    startedAt := some startedAt
    finishedAt := some finishedAt }

def sweepOld (previous : List Deployment) (created : List String) : Sys Unit := do
  let old ← iterationOrder (allOldContainers previous)
  Program.forAll (fun name =>
    if name ∈ created then .pure ()
    else (stopContainer name).bind fun _ => removeContainer name) old.val

def finishRollout (plan : Plan) (rollout : Rollout) (restoreAppConfig : Bool) : Fallible Unit := do
  restoreIfRollback plan.app restoreAppConfig
  let existing ← Store.listServicesByApp plan.app.id
  let kept := rollout.serviceDeployments.filter fun row =>
    existing.any fun service => service.id = row.serviceId
  let startedAt ← utcNow
  let finishedAt ← utcNow
  Store.saveDeployment (finishedDeployment plan kept startedAt finishedAt)
  sendProxyRefresh plan.runtime plan.app.id
  sweepOld plan.previous rollout.newContainerIds
  ExceptT.mk (Program.forEach (fun previous => (markDeploymentStopped previous).run) plan.previous)

def sortServices (services : List ContainerService) : Fallible (List ContainerService) := do
  let ready ← iterationOrder (readyNames services)
  ExceptT.mk (.pure (topologicalSortServices services ready.val))

def deployServices (runtime : Runtime) (app : App) (deployment : Deployment) (networkName : String)
    (images : ServiceImages) (sharedEnv : List (String × String)) (strategy : RolloutStrategy)
    (restoreAppConfig : Bool) : Fallible Unit := do
  let sorted ← sortServices app.services
  let previous ← getPreviousRunningDeployments app.id deployment.id
  let plan : Plan := ⟨runtime, app, deployment, networkName, images, sharedEnv, strategy, previous⟩
  let (outcome, rollout) ← liftM (plan.rolloutServices sorted)
  match outcome with
  | .error message =>
      Plan.undo rollout
      throw message
  | .ok () => finishRollout plan rollout restoreAppConfig

end Containr.Worker
