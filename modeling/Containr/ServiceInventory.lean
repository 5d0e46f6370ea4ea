import Containr.Models

/-!
# `containr-common/src/service_inventory.rs`

What the dashboard says about a service: the deployment it is judged by, the replicas
wanted and running, and their containers.
-/

namespace Containr

inductive ServiceRuntimeStatus where
  | pending | starting | running | partially | stopped | failed
deriving DecidableEq, Repr

structure AppServiceRuntimeSummary where
  deploymentId : Option Uuid
  image : Option String
  status : ServiceRuntimeStatus
  desiredInstances : Nat
  runningInstances : Nat
  containerIds : List String
deriving DecidableEq, Repr

def desiredInstances (service : ContainerService) : Nat :=
  if service.isCronJob then 1 else max service.replicas 1

def summarizedDeployment (deployments : List Deployment) : Option Deployment :=
  let sorted := deployments.insertionSort fun left right => right.createdAt ≤ left.createdAt
  (sorted.find? fun deployment => deployment.status = .running).orElse fun _ => sorted.head?

def configuredImage (service : ContainerService) : Option String :=
  if Text.blank service.image then none else some service.image

def summarizedImage (service : ContainerService) (deployment : Deployment) : Option String :=
  ((deployment.serviceDeployments.find? fun row => row.serviceId = service.id).bind
    (·.imageId)).orElse fun _ =>
      (configuredImage service).orElse fun _ => deployment.imageId

def unrecordedStatus : DeploymentStatus → ServiceRuntimeStatus
  | .failed => .failed
  | .stopped | .running => .stopped
  | .pending => .pending
  | .cloning | .building | .pushing | .starting => .starting

def runningRows (rows : List ServiceDeployment) : Nat :=
  (rows.filter fun row => row.status = .running).length

def recordedStatus (desired : Nat) (rows : List ServiceDeployment) : ServiceRuntimeStatus :=
  if runningRows rows = desired && 0 < desired then .running
  else if 0 < runningRows rows then .partially
  else if rows.any (fun row => row.status.inProgress) then .starting
  else if rows.any (fun row => row.status = .failed) then .failed
  else if rows.all (fun row => row.status = .stopped) then .stopped
  else .pending

def summarizeAppServiceRuntime (service : ContainerService) (deployments : List Deployment) :
    AppServiceRuntimeSummary :=
  let desired := desiredInstances service
  match summarizedDeployment deployments with
  | none => ⟨none, configuredImage service, .pending, desired, 0, []⟩
  | some deployment =>
      let image := summarizedImage service deployment
      let rows := deployment.serviceDeployments.filter fun row => row.serviceId = service.id
      if rows.isEmpty then
        ⟨some deployment.id, image, unrecordedStatus deployment.status, desired, 0, []⟩
      else
        ⟨some deployment.id, image, recordedStatus desired rows, desired, runningRows rows,
          rows.filterMap (·.containerId)⟩

theorem summary_deployment_id (service : ContainerService) (deployments : List Deployment) :
    (summarizeAppServiceRuntime service deployments).deploymentId =
      (summarizedDeployment deployments).map (·.id) := by
  unfold summarizeAppServiceRuntime
  cases summarizedDeployment deployments with
  | none => rfl
  | some deployment =>
      dsimp only
      split_ifs
      · rfl
      · rfl

end Containr
