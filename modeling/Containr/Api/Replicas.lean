import Containr.Api.Services

/-!
# Start, stop and scale

`start_app_service` and `reconcile_app_service_replicas` of
`containr-api/src/domain/services/mod.rs`, with `start_service_replica` of
`containr-runtime/src/app_service_manager.rs`; `stop_app_service` is `stopAppService`. All
three work on the deployment that `resolve_app_service_deployment` picks.
-/

namespace Containr.Api.Services

open Containr.Effect Containr.Worker

/-- `resolve_service_image`: the replica's record, the first record of the service, the
configured image, the image of the deployment. -/
def resolveServiceImage (deployment : Deployment) (service : ContainerService)
    (replicaIndex : Nat) : Option String :=
  let own := (deployment.serviceDeployments.find? fun row =>
    row.serviceId = service.id && row.replicaIndex = replicaIndex && row.imageId.isSome).bind
      (·.imageId)
  let sibling := (deployment.serviceDeployments.find? fun row => row.serviceId = service.id).bind
    (·.imageId)
  (own.orElse fun _ => sibling).orElse fun _ =>
    if Text.blank service.image then deployment.imageId else some service.image

def managerError (action message : String) : ApiError :=
  ⟨500, "failed to " ++ action ++ ": " ++ message⟩

/-- `.map_err(|error| service_manager_error(action, error))?`. -/
def orManager {Value : Type} (action : String) (program : Fallible Value) : Handler Value :=
  ExceptT.mk (program.run.bind fun result =>
    .pure (match result with
      | .ok value => .ok value
      | .error message => .error (managerError action message)))

def replicaContainerName (app : App) (service : ContainerService) (deployment : Deployment)
    (replica : Nat) : String :=
  "containr-" ++ app.id.toString ++ "-" ++ service.name ++ "-" ++ toString replica ++ "-" ++
    Cron.shortId deployment.id.toString

def replicaConfig (app : App) (service : ContainerService) (deployment : Deployment)
    (image : String) (replica : Nat) (mounts : List DockerBindMount) : DockerContainerConfig where
  id := replicaContainerName app service deployment replica
  image := image
  envVars := replicaEnv (sharedEnvVars app) service replica
  port := service.port
  additionalPorts := service.additionalPorts
  portMappings := servicePortMappings service replica
  command := service.command
  entrypoint := service.entrypoint
  workingDir := service.workingDir
  memoryLimit := service.memoryLimit
  cpuLimit := service.cpuLimit
  network := some ⟨app.networkName, serviceNetworkAliases service.name replica⟩
  mounts := mounts
  additionalNetworks := []
  healthCheck := healthCheckCommand service
  restartPolicy := restartPolicyName service.restartPolicy

def pullReplicaImage (runtime : Runtime) (app : App) (service : ContainerService)
    (image : String) : Fallible Unit := do
  if shouldPullServiceImage service image then
    let credentials ← resolveRegistryCredentials runtime app.ownerId service service.image
    ExceptT.mk (external (.pullImage image credentials))

def requireHealthy (service : ContainerService) (replica : Nat) (container : String) :
    Fallible Unit := do
  if service.healthCheck.isSome then
    let healthy : Bool ← ExceptT.mk (external (.waitForHealthy container 60))
    if !healthy then
      stopContainer container
      removeContainer container
      throw ("service " ++ service.name ++ " replica " ++ toString replica ++
        " failed health check")

def startServiceReplica (runtime : Runtime) (app : App) (service : ContainerService)
    (deployment : Deployment) (image : String) (replica : Nat) : Fallible String := do
  ExceptT.mk (external (.createNetwork app.networkName))
  let name := replicaContainerName app service deployment replica
  stopContainer name
  removeContainer name
  pullReplicaImage runtime app service image
  let mounts ← Containr.buildServiceMounts runtime.workDir app.id service
  let _ ← createContainer (replicaConfig app service deployment image replica mounts)
  requireHealthy service replica name
  return name

def ofReplica (serviceId : Uuid) (replica : Nat) (row : ServiceDeployment) : Bool :=
  row.serviceId = serviceId && row.replicaIndex = replica

/-- The position of the replica's record, which is appended when there is none. -/
def ensureServiceDeploymentIndex (deployment : Deployment) (serviceId : Uuid) (replica : Nat) :
    Sys (Deployment × Nat) :=
  match deployment.serviceDeployments.findIdx? (ofReplica serviceId replica) with
  | some index => .pure (deployment, index)
  | none => do
      let id ← newUuid
      let now ← utcNow
      let row := ServiceDeployment.new id now serviceId deployment.id replica
      return ({ deployment with serviceDeployments := deployment.serviceDeployments ++ [row] },
        deployment.serviceDeployments.length)

def rowRuns (row : ServiceDeployment) : Bool := row.status = .running && row.containerId.isSome

def startedRow (image container : String) (now : Time) (row : ServiceDeployment) :
    ServiceDeployment :=
  { row with
    imageId := some image
    containerId := some container
    status := .running
    startedAt := some now
    finishedAt := none }

/-- Starts the replica recorded at the position unless it runs; the flag says whether it had
to be started. -/
def startReplicaAt (action : String) (runtime : Runtime) (app : App) (service : ContainerService)
    (replica : Nat) (deployment : Deployment) (index : Nat) : Handler (Deployment × Bool) := do
  if deployment.serviceDeployments[index]?.any rowRuns then
    return (deployment, false)
  let some image := resolveServiceImage deployment service replica
    | throw (badRequest "service has no deployed image")
  let container ← orManager action
    (startServiceReplica runtime app service deployment image replica)
  let now ← utcNow
  return ({ deployment with
    serviceDeployments :=
      deployment.serviceDeployments.modify index (startedRow image container now) }, true)

/-- One round of the loop. -/
def ensureReplica (action : String) (runtime : Runtime) (app : App) (service : ContainerService)
    (deployment : Deployment) (replica : Nat) : Handler (Deployment × Bool) := do
  let (ensured, index) ← ensureServiceDeploymentIndex deployment service.id replica
  startReplicaAt action runtime app service replica ensured index

def ensureReplicas (action : String) (runtime : Runtime) (app : App) (service : ContainerService) :
    List Nat → Deployment → Handler (Deployment × Bool)
  | [], deployment => pure (deployment, false)
  | replica :: rest, deployment => do
      let (ensured, started) ← ensureReplica action runtime app service deployment replica
      let (last, others) ← ensureReplicas action runtime app service rest ensured
      return (last, started || others)

def desiredReplicas (service : ContainerService) : Nat := max service.replicas 1

def startedAtOrNow (deployment : Deployment) : Sys Time :=
  match deployment.startedAt with
  | some time => .pure time
  | none => utcNow

def startPicked (server : Server) (runtime : Runtime) (app : App) (service : ContainerService)
    (picked : Deployment) : Handler Unit := do
  orInternal (ExceptT.mk (external .serviceManager))
  let (deployment, changed) ← ensureReplicas "start service" runtime app service
    (List.range (desiredReplicas service)) picked
  if changed then
    let startedAt ← startedAtOrNow deployment
    let now ← utcNow
    persistDeployment { deployment with
      status := .running, startedAt := some startedAt, finishedAt := some now }
    if service.isPublicHttp then
      refreshProxyRoutes server app.id

def startAppService (server : Server) (runtime : Runtime) (app : App)
    (service : ContainerService) : Handler Unit := do
  ensure (!service.isCronJob)
    (badRequest "cron jobs are scheduled and cannot be started manually")
  let some picked ← resolveAppServiceDeployment app service
    | throw (badRequest "service has no deployed image")
  startPicked server runtime app service picked

/-- A record above the wanted number of replicas. -/
def surplusRow (service : ContainerService) (row : ServiceDeployment) : Bool :=
  row.serviceId = service.id && desiredReplicas service ≤ row.replicaIndex

def stopSurplusRow (service : ContainerService) (row : ServiceDeployment) :
    Sys ServiceDeployment :=
  if surplusRow service row then stopServiceRow service.id true row else .pure row

def stopSurplusRows (service : ContainerService) :
    List ServiceDeployment → Sys (List ServiceDeployment)
  | [] => .pure []
  | row :: rest => do
      let stopped ← stopSurplusRow service row
      let others ← stopSurplusRows service rest
      return stopped :: others

def reconciledStatus (deployment : Deployment) (service : ContainerService) : DeploymentStatus :=
  if deployment.serviceDeployments.any fun row =>
      row.serviceId = service.id && row.status = .running then .running
  else deployment.status

def reconcilePicked (runtime : Runtime) (app : App) (service : ContainerService)
    (picked : Deployment) : Handler Unit := do
  orInternal (ExceptT.mk (external .serviceManager))
  let (deployment, changed) ← ensureReplicas "scale service" runtime app service
    (List.range (desiredReplicas service)) picked
  let rows ← stopSurplusRows service deployment.serviceDeployments
  if changed || deployment.serviceDeployments.any (surplusRow service) then
    let scaled := { deployment with serviceDeployments := rows }
    let startedAt ← startedAtOrNow scaled
    let now ← utcNow
    persistDeployment { scaled with
      status := reconciledStatus scaled service
      startedAt := some startedAt
      finishedAt := some now }

def reconcileAppServiceReplicas (runtime : Runtime) (app : App) (service : ContainerService) :
    Handler Unit := do
  if service.isCronJob then
    return ()
  match ← resolveAppServiceDeployment app service with
  | none => return ()
  | some picked => reconcilePicked runtime app service picked

end Containr.Api.Services
