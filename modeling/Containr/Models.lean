import Mathlib.Algebra.Group.Int.Defs
import Mathlib.Algebra.Group.Nat.Defs
import Mathlib.Data.Char
import Mathlib.Data.List.Lex
import Mathlib.Data.List.Sort
import Containr.Text

/-!
# Records of `containr-common/src/models.rs`

The field names are the source's. A v4 uuid is a number that is issued once
(`Uuid`); times are seconds; a `f64` is kept as its 64-bit pattern because no
modelled function computes with it. `Project::domain` is never stored and
`Deployment::logs` is cleared on every read, so neither has a field here.
-/

namespace Containr

structure Uuid where
  value : Nat
deriving DecidableEq, Repr, Inhabited

namespace Uuid

/-- Lower-case hexadecimal with at least `width` digits. -/
def hexDigits : Nat → Nat → List Char
  | 0, _ => []
  | width + 1, value => hexDigits width (value / 16) ++ [Nat.digitChar (value % 16)]

/-- `Uuid::simple`: 32 hexadecimal digits. -/
def simple (id : Uuid) : String := String.ofList (hexDigits 32 id.value)

/-- The hyphenated form of `Display`. -/
def toString (id : Uuid) : String :=
  let digits := hexDigits 32 id.value
  String.ofList (digits.take 8 ++ '-' :: (digits.drop 8).take 4 ++ '-' :: (digits.drop 12).take 4 ++
    '-' :: (digits.drop 16).take 4 ++ '-' :: digits.drop 20)

instance : ToString Uuid := ⟨toString⟩

/-- `as_bytes()[index]`. -/
def byte (id : Uuid) (index : Nat) : Nat := id.value / 256 ^ (15 - index) % 256

/-- The stored text of an id sorts as its number. -/
instance : LE Uuid := ⟨fun left right => left.value ≤ right.value⟩

instance (left right : Uuid) : Decidable (left ≤ right) :=
  inferInstanceAs (Decidable (left.value ≤ right.value))

end Uuid

abbrev Time := Nat

/-- `value as i64`. -/
def asI64 (value : Nat) : Int :=
  if value % 2 ^ 64 < 2 ^ 63 then (value % 2 ^ 64 : Nat) else (value % 2 ^ 64 : Nat) - 2 ^ 64

theorem as_i64_small {value : Nat} (small : value < 2 ^ 63) : asI64 value = value := by
  unfold asI64
  have same : value % 2 ^ 64 = value := Nat.mod_eq_of_lt (by omega)
  rw [same, if_pos small]

/-- From `2^63` on the cast is negative. -/
theorem as_i64_large {value : Nat} (large : 2 ^ 63 ≤ value) (word : value < 2 ^ 64) :
    asI64 value < 0 := by
  unfold asI64
  have same : value % 2 ^ 64 = value := Nat.mod_eq_of_lt word
  rw [same, if_neg (Nat.not_lt.mpr large)]
  omega

/-- The bit pattern of a `f64`. -/
abbrev Float64 := BitVec 64

structure EnvVar where
  key : String
  value : String
  isSecret : Bool
deriving DecidableEq, Repr

structure BuildArg where
  key : String
  value : String
  isSecret : Bool
deriving DecidableEq, Repr

inductive RestartPolicy where
  | never | always | onFailure | unlessStopped
deriving DecidableEq, Repr

inductive RolloutStrategy where
  | stopFirst | startFirst
deriving DecidableEq, Repr

structure HealthCheck where
  path : String
  intervalSecs : Nat
  timeoutSecs : Nat
  retries : Nat
deriving DecidableEq, Repr

structure ServiceMount where
  name : String
  target : String
  readOnly : Bool
  hostPath : Option String
  isShared : Bool
deriving DecidableEq, Repr

structure ConfigFile where
  path : String
  content : String
deriving DecidableEq, Repr

structure BasicAuth where
  username : String
  passwordHash : String
deriving DecidableEq, Repr

inductive LoginGateScope where
  | owner | allUsers
deriving DecidableEq, Repr

structure LoginGate where
  scope : LoginGateScope
deriving DecidableEq, Repr

inductive PortProtocol where
  | tcp | udp
deriving DecidableEq, Repr

def PortProtocol.asStr : PortProtocol → String
  | .tcp => "tcp"
  | .udp => "udp"

structure PortMapping where
  hostPort : Nat
  containerPort : Nat
  protocol : PortProtocol
deriving DecidableEq, Repr

structure ServiceRegistryAuth where
  server : Option String
  username : String
  password : String
deriving DecidableEq, Repr

structure ContainerRegistry where
  id : Uuid
  ownerId : Uuid
  server : String
  username : String
  passwordEnc : String
  createdAt : Time
deriving DecidableEq, Repr

inductive ServiceType where
  | webService | privateService | backgroundWorker | cronJob
  | postgres | redis | mariadb | qdrant | rabbitMq
deriving DecidableEq, Repr

structure ContainerService where
  id : Uuid
  appId : Uuid
  name : String
  image : String
  serviceType : ServiceType
  port : Nat
  exposeHttp : Bool
  additionalPorts : List Nat
  replicas : Nat
  memoryLimit : Option Nat
  cpuLimit : Option Float64
  dependsOn : List String
  healthCheck : Option HealthCheck
  restartPolicy : RestartPolicy
  registryAuth : Option ServiceRegistryAuth
  envVars : List EnvVar
  domains : List String
  httpOnlyDomains : List String
  buildContext : Option String
  dockerfilePath : Option String
  buildTarget : Option String
  buildArgs : List BuildArg
  command : Option (List String)
  entrypoint : Option (List String)
  workingDir : Option String
  schedule : Option String
  mounts : List ServiceMount
  notes : Option String
  basicAuth : Option BasicAuth
  loginGate : Option LoginGate
  portMappings : List PortMapping
  files : List ConfigFile
  createdAt : Time
  updatedAt : Time
deriving DecidableEq, Repr

namespace ContainerService

/-- `ContainerService::new` with the id and the clock reading it draws. -/
def new (id : Uuid) (now : Time) (appId : Uuid) (name image : String) (port : Nat) :
    ContainerService where
  id := id
  appId := appId
  name := name
  image := image
  serviceType := .privateService
  port := port
  exposeHttp := false
  additionalPorts := []
  replicas := 1
  memoryLimit := none
  cpuLimit := none
  dependsOn := []
  healthCheck := none
  restartPolicy := .always
  registryAuth := none
  envVars := []
  domains := []
  httpOnlyDomains := []
  buildContext := none
  dockerfilePath := none
  buildTarget := none
  buildArgs := []
  command := none
  entrypoint := none
  workingDir := none
  schedule := none
  mounts := []
  notes := none
  basicAuth := none
  loginGate := none
  portMappings := []
  files := []
  createdAt := now
  updatedAt := now

def isPublicHttp (service : ContainerService) : Bool := service.serviceType = .webService

def isCronJob (service : ContainerService) : Bool := service.serviceType = .cronJob

def requiresSourceCheckout (service : ContainerService) : Bool := Text.blank service.image

def customDomains (service : ContainerService) : List String :=
  service.domains.foldl (fun domains domain =>
    if !Text.blank domain && !domains.contains domain then domains ++ [domain] else domains) []

/-- The method `http_only_domains`, which shares its name with the field. -/
def customHttpOnlyDomains (service : ContainerService) : List String :=
  service.httpOnlyDomains.foldl (fun domains domain =>
    if service.customDomains.contains domain && !domains.contains domain then domains ++ [domain]
    else domains) []

def httpsDomains (service : ContainerService) : List String :=
  service.customDomains.filter fun domain => !service.customHttpOnlyDomains.contains domain

def domainHttpsEnabled (service : ContainerService) (domain : String) : Bool :=
  service.httpsDomains.contains domain

end ContainerService

def defaultServiceDomainLabel (serviceId : Uuid) : String :=
  "service-" ++ String.ofList ((List.range 5).map fun index =>
    Char.ofNat (97 + (serviceId.byte index ^^^ serviceId.byte (index + 11)) % 26))

def defaultServiceDomain (serviceId : Uuid) (baseDomain : String) : Option String :=
  let baseDomain := Text.trimEndMatches (Text.trim baseDomain) '.'
  if baseDomain.isEmpty then none
  else some (defaultServiceDomainLabel serviceId ++ "." ++ baseDomain)

/-- `Project`, which the source also calls `App`. -/
structure App where
  id : Uuid
  name : String
  githubUrl : String
  branch : String
  domains : List String
  envVars : List EnvVar
  autoDeployEnabled : Bool
  autoDeployWatchPaths : List String
  autoDeployCleanupStaleDeployments : Bool
  deployWebhookToken : Option String
  port : Nat
  services : List ContainerService
  rolloutStrategy : RolloutStrategy
  ownerId : Uuid
  createdAt : Time
  updatedAt : Time
deriving DecidableEq, Repr

namespace App

def requiresSourceCheckout (app : App) : Bool :=
  app.services.any ContainerService.requiresSourceCheckout

def networkName (app : App) : String := "containr-" ++ app.id.toString

def customDomains (app : App) : List String :=
  (app.services.flatMap ContainerService.domains).foldl (fun domains domain =>
    if domains.contains domain then domains else domains ++ [domain]) []

end App

inductive ServiceHealth where
  | unknown | healthy | unhealthy | starting
deriving DecidableEq, Repr

inductive DeploymentStatus where
  | pending | cloning | building | pushing | starting | running | failed | stopped
deriving DecidableEq, Repr

structure ServiceDeployment where
  id : Uuid
  serviceId : Uuid
  deploymentId : Uuid
  replicaIndex : Nat
  status : DeploymentStatus
  containerId : Option String
  imageId : Option String
  health : ServiceHealth
  logs : List String
  startedAt : Option Time
  finishedAt : Option Time
  createdAt : Time
deriving DecidableEq, Repr

/-- `ServiceDeployment::new` with the id and the clock reading it draws. -/
def ServiceDeployment.new (id : Uuid) (now : Time) (serviceId deploymentId : Uuid)
    (replicaIndex : Nat) : ServiceDeployment where
  id := id
  serviceId := serviceId
  deploymentId := deploymentId
  replicaIndex := replicaIndex
  status := .pending
  containerId := none
  imageId := none
  health := .unknown
  logs := []
  startedAt := none
  finishedAt := none
  createdAt := now

structure Deployment where
  id : Uuid
  appId : Uuid
  commitSha : String
  commitMessage : Option String
  branch : String
  sourceUrl : Option String
  rolloutStrategy : RolloutStrategy
  rollbackFromDeploymentId : Option Uuid
  appSnapshot : Option App
  status : DeploymentStatus
  containerId : Option String
  imageId : Option String
  serviceDeployments : List ServiceDeployment
  startedAt : Option Time
  finishedAt : Option Time
  createdAt : Time
deriving DecidableEq, Repr

/-- `Deployment::new` with the id and the clock reading it draws. -/
def Deployment.new (id : Uuid) (now : Time) (appId : Uuid) (commitSha : String) : Deployment where
  id := id
  appId := appId
  commitSha := commitSha
  commitMessage := none
  branch := "main"
  sourceUrl := none
  rolloutStrategy := .stopFirst
  rollbackFromDeploymentId := none
  appSnapshot := none
  status := .pending
  containerId := none
  imageId := none
  serviceDeployments := []
  startedAt := none
  finishedAt := none
  createdAt := now

inductive DeploymentSource where
  | remoteGit (url : String) (token : Option String)
  | localPath (path : String)
  | none
deriving DecidableEq, Repr

structure DeploymentJob where
  deploymentId : Uuid
  appId : Uuid
  commitSha : String
  commitMessage : Option String
  branch : String
  source : DeploymentSource
  rolloutStrategy : RolloutStrategy
  rollbackFromDeploymentId : Option Uuid
  localBuildServiceId : Option Uuid
deriving DecidableEq, Repr

/-- The `Debug` text of a status, as the deployment log shows it. -/
def DeploymentStatus.debug : DeploymentStatus → String
  | .pending => "Pending"
  | .cloning => "Cloning"
  | .building => "Building"
  | .pushing => "Pushing"
  | .starting => "Starting"
  | .running => "Running"
  | .failed => "Failed"
  | .stopped => "Stopped"

/-- The statuses both `supersede_stale_deployments` and
`is_interrupted_deployment_status` list. -/
def DeploymentStatus.inProgress : DeploymentStatus → Bool
  | .pending | .cloning | .building | .pushing | .starting => true
  | .running | .failed | .stopped => false

end Containr
