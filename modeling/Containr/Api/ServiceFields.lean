import Containr.Identifiers
import Containr.System

/-!
# The fields of a service request

The field rules of `containr-api/src/domain/services/mod.rs`: each turns a requested
value and the stored one into the value to store, or rejects the request. Functions of
crates, and of the standard library where they need Unicode tables, are `Crates`.
-/

namespace Containr.Api

open Containr.Effect

structure Crates where
  /-- `str::to_lowercase`. -/
  toLowercase : String → String
  /-- The `Debug` text of a string. -/
  debug : String → String
  /-- `Cron::from_str`, as far as it fails. -/
  parseCron : String → Except String Unit
  /-- `IpAddr::from_str`, in the form addresses are compared in. -/
  parseIp : String → Option String
  /-- `Uuid::parse_str`. -/
  parseUuid : String → Option Uuid

abbrev Checked (Value : Type) : Type := Except ApiError Value

def badRequest (message : String) : ApiError := ⟨400, message⟩

def forbidden (message : String) : ApiError := ⟨403, message⟩

def notFound (message : String) : ApiError := ⟨404, message⟩

def conflict (message : String) : ApiError := ⟨409, message⟩

structure EnvVarRequest where
  key : String
  value : String
  isSecret : Option Bool
deriving DecidableEq, Repr

structure HealthCheckRequest where
  path : String
  intervalSecs : Option Nat
  timeoutSecs : Option Nat
  retries : Option Nat
deriving DecidableEq, Repr

structure ServiceMountRequest where
  name : String
  target : String
  readOnly : Option Bool
  hostPath : Option String
  isShared : Option Bool
deriving DecidableEq, Repr

structure ServiceRegistryAuthRequest where
  server : Option String
  username : Option String
  password : Option String
deriving DecidableEq, Repr

structure ConfigFileRequest where
  path : String
  content : String
deriving DecidableEq, Repr

structure PortMappingRequest where
  hostPort : Nat
  containerPort : Nat
  protocol : Option String
deriving DecidableEq, Repr

structure BasicAuthRequest where
  username : Option String
  password : Option String
deriving DecidableEq, Repr

structure LoginGateRequest where
  scope : Option String
deriving DecidableEq, Repr

/-- In the three doubly optional fields `none` is an absent field, `some none` a null. -/
structure ServiceRequest where
  name : String
  image : Option String
  serviceType : Option String
  port : Nat
  exposeHttp : Option Bool
  domains : Option (List String)
  domain : Option String
  httpOnlyDomains : Option (List String)
  additionalPorts : Option (List Nat)
  replicas : Option Nat
  memoryLimitMb : Option Nat
  cpuLimit : Option Float64
  dependsOn : Option (List String)
  healthCheck : Option HealthCheckRequest
  restartPolicy : Option String
  registryAuth : Option ServiceRegistryAuthRequest
  envVars : Option (List EnvVarRequest)
  buildContext : Option String
  dockerfilePath : Option String
  buildTarget : Option String
  buildArgs : Option (List EnvVarRequest)
  command : Option (List String)
  entrypoint : Option (List String)
  workingDir : Option String
  schedule : Option String
  mounts : Option (List ServiceMountRequest)
  notes : Option (Option String)
  basicAuth : Option (Option BasicAuthRequest)
  loginGate : Option (Option LoginGateRequest)
  portMappings : Option (List PortMappingRequest)
  files : Option (List ConfigFileRequest)
deriving DecidableEq, Repr

def normalizeOptionalString (value : Option String) : Option String :=
  (value.map Text.trim).filter fun text => !text.isEmpty

def nonEmpty (value : Option String) : Option String :=
  (value.map Text.trim).filter fun text => !text.isEmpty

/-- An absent value keeps the stored one, a blank one clears it. -/
def normalizeOptionalArgs (value existing : Option (List String)) : Option (List String) :=
  match value with
  | none => existing
  | some entries =>
      let normalized := (entries.map Text.trim).filter fun entry => !entry.isEmpty
      if normalized.isEmpty then none else some normalized

def normalizeCronSchedule (crates : Crates) (value existing : Option String) :
    Checked (Option String) :=
  match value with
  | none => .ok existing
  | some value =>
      let trimmed := Text.trim value
      if trimmed.isEmpty then .ok none
      else match crates.parseCron trimmed with
        | .ok () => .ok (some trimmed)
        | .error error => .error (badRequest ("invalid cron schedule: " ++ error))

def normalizeWorkingDir (value existing : Option String) : Checked (Option String) :=
  match value with
  | none => .ok existing
  | some value =>
      let trimmed := Text.trim value
      if trimmed.isEmpty then .ok none
      else if !Text.startsWith trimmed "/" then
        .error (badRequest "working directory must be an absolute container path")
      else .ok (some trimmed)

def normalizeRepoRelativePath (field : String) (value existing : Option String) :
    Checked (Option String) :=
  match value with
  | none => .ok existing
  | some value =>
      let trimmed := Text.trim value
      if trimmed.isEmpty then .ok none
      else if Path.isAbsolute trimmed then
        .error (badRequest (field ++ " must be relative to the repository root"))
      else if !Path.descends trimmed then
        .error (badRequest (field ++ " cannot contain parent traversal or absolute components"))
      else .ok (some trimmed)

def maxNotesChars : Nat := 4000

def resolveServiceNotes (value : Option (Option String)) (existing : Option String) :
    Checked (Option String) :=
  match value with
  | none => .ok existing
  | some value =>
      let notes := normalizeOptionalString value
      if notes.any fun text => maxNotesChars < text.length then
        .error (badRequest ("notes must be at most " ++ toString maxNotesChars ++ " characters"))
      else .ok notes

def parseRestartPolicy (crates : Crates) (value : Option String) : RestartPolicy :=
  let name := crates.toLowercase (value.getD "always")
  if name ∈ ["never", "no"] then .never
  else if name ∈ ["onfailure", "on-failure", "on_failure"] then .onFailure
  else if name ∈ ["unless-stopped", "unless_stopped", "unlessstopped"] then .unlessStopped
  else .always

def restartPolicyLabel : RestartPolicy → String
  | .never => "never"
  | .always => "always"
  | .onFailure => "on-failure"
  | .unlessStopped => "unless-stopped"

def parseRolloutStrategy (value : String) : Option RolloutStrategy :=
  let name := Text.toAsciiLowercase (Text.trim value)
  if name ∈ ["stop_first", "stop-first", "stopfirst"] then some .stopFirst
  else if name ∈ ["start_first", "start-first", "startfirst"] then some .startFirst
  else none

def resolveRolloutStrategy (overrideValue : Option String) (defaultValue : RolloutStrategy) :
    Checked RolloutStrategy :=
  match overrideValue with
  | none => .ok defaultValue
  | some value =>
      match parseRolloutStrategy value with
      | some strategy => .ok strategy
      | none => .error (badRequest "invalid rollout strategy. use stop_first or start_first")

def normalizeWatchPaths (paths : List String) : Checked (List String) :=
  paths.foldlM (fun normalized path =>
    let trimmed := Text.trim path
    if trimmed.isEmpty then .ok normalized
    else if Text.startsWith trimmed "/" then
      .error (badRequest "watch paths must be relative repository paths or glob patterns")
    else if normalized.contains trimmed then .ok normalized
    else .ok (normalized ++ [trimmed])) []

def parseServiceType (value : String) : Option ServiceType :=
  let name := Text.toAsciiLowercase (Text.trim value)
  if name ∈ ["web_service", "web-service", "webservice", "web"] then some .webService
  else if name ∈ ["private_service", "private-service", "privateservice", "private"] then
    some .privateService
  else if name ∈ ["background_worker", "background-worker", "backgroundworker", "worker",
      "background"] then some .backgroundWorker
  else if name ∈ ["cron_job", "cron-job", "cronjob", "cron"] then some .cronJob
  else none

def serviceTypeName : ServiceType → String
  | .webService => "web_service"
  | .privateService => "private_service"
  | .backgroundWorker => "background_worker"
  | .cronJob => "cron_job"
  | .postgres => "postgres"
  | .redis => "redis"
  | .mariadb => "mariadb"
  | .qdrant => "qdrant"
  | .rabbitMq => "rabbitmq"

def resolveServiceType (request : ServiceRequest) (existing : ServiceType) :
    Checked ServiceType :=
  match request.serviceType with
  | some name =>
      match parseServiceType name with
      | some serviceType => .ok serviceType
      | none => .error (badRequest
          ("invalid service type. use web_service, private_service, background_worker, " ++
            "or cron_job"))
  | none =>
      if request.exposeHttp = some true then .ok .webService
      else if request.exposeHttp = some false then
        if request.port = 0 then .ok .backgroundWorker else .ok .privateService
      else if request.port = 0 then .ok .backgroundWorker
      else .ok existing

def normalizeAdditionalPorts (value : Option (List Nat)) (existing : List Nat)
    (primaryPort : Nat) : Checked (List Nat) :=
  (value.getD existing).foldlM (fun normalized port =>
    if port = 0 then
      .error (badRequest "additional service ports must be between 1 and 65535")
    else if port = primaryPort then
      .error (badRequest ("additional port " ++ toString port ++ " duplicates the primary port"))
    else if normalized.contains port then
      .error (badRequest ("duplicate additional port: " ++ toString port))
    else .ok (normalized ++ [port])) []

def parsePortProtocol (value : String) : Option PortProtocol :=
  let name := Text.toAsciiLowercase (Text.trim value)
  if name = "tcp" then some .tcp else if name = "udp" then some .udp else none

def requestedProtocol (value : Option String) : Checked PortProtocol :=
  match value.map Text.trim with
  | none | some "" => .ok .tcp
  | some name =>
      match parsePortProtocol name with
      | some protocol => .ok protocol
      | none => .error (badRequest "port mapping protocol must be tcp or udp")

/-- What two services may not both publish. -/
def PortMapping.key (mapping : PortMapping) : Nat × PortProtocol :=
  (mapping.hostPort, mapping.protocol)

def pushPortMapping (mappings : List PortMapping) (request : PortMappingRequest) :
    Checked (List PortMapping) := do
  if request.hostPort = 0 ∨ request.containerPort = 0 then
    throw (badRequest "port mapping ports must be between 1 and 65535")
  let protocol ← requestedProtocol request.protocol
  if mappings.any fun mapping => PortMapping.key mapping = (request.hostPort, protocol) then
    throw (badRequest ("duplicate host port mapping: " ++ toString request.hostPort ++ "/" ++
      protocol.asStr))
  return mappings ++ [⟨request.hostPort, request.containerPort, protocol⟩]

def resolvePortMappings (value : Option (List PortMappingRequest)) (existing : List PortMapping)
    (serviceType : ServiceType) : Checked (List PortMapping) := do
  match value with
  | none => return existing
  | some requests =>
      let mappings ← requests.foldlM pushPortMapping []
      if !mappings.isEmpty && serviceType = .cronJob then
        throw (badRequest "cron jobs cannot publish host ports")
      return mappings

def secretMask : String := "********"

def maskSecretValue (isSecret : Bool) (value : String) : String :=
  if isSecret && !value.isEmpty then secretMask else value

def resolveMaskedValue (value : String) (isSecret : Option Bool) (existing : Option (String × Bool))
    (label key : String) : Checked (String × Bool) :=
  match existing with
  | some (stored, true) =>
      if value = secretMask then .ok (stored, true) else .ok (value, isSecret.getD true)
  | some (stored, false) =>
      if isSecret.getD false && value = secretMask then .ok (stored, true)
      else .ok (value, isSecret.getD false)
  | none =>
      if isSecret.getD false && value = secretMask then
        .error (badRequest ("missing original value for masked " ++ label ++ " " ++ key))
      else .ok (value, isSecret.getD false)

/-- A key, its value and whether that is a secret. -/
abbrev Variable : Type := String × String × Bool

def pushVariable (label : String) (existing : List Variable) (entries : List Variable)
    (request : EnvVarRequest) : Checked (List Variable) := do
  let key := Text.trim request.key
  if key.isEmpty then
    throw (badRequest (label ++ " key cannot be empty"))
  if entries.any fun entry => entry.1 = key then
    throw (badRequest ("duplicate " ++ label ++ " key: " ++ key))
  -- a later entry of one key overwrites an earlier one in the map
  let stored := (lookup Prod.fst key existing.reverse).map Prod.snd
  let (value, isSecret) ← resolveMaskedValue request.value request.isSecret stored label key
  return entries ++ [(key, value, isSecret)]

/-- The common body of the three functions below. -/
def buildVariables (label : String) (requests : Option (List EnvVarRequest))
    (existing : List Variable) : Checked (List Variable) :=
  match requests with
  | none => .ok existing
  | some requests => requests.foldlM (pushVariable label existing) []

def envVarEntry (envVar : EnvVar) : Variable := (envVar.key, envVar.value, envVar.isSecret)

def buildServiceEnvVars (requests : Option (List EnvVarRequest)) (existing : List EnvVar) :
    Checked (List EnvVar) :=
  (buildVariables "service env var" requests (existing.map envVarEntry)).map fun entries =>
    entries.map fun entry => ⟨entry.1, entry.2.1, entry.2.2⟩

def buildAppEnvVars (requests : Option (List EnvVarRequest)) (existing : List EnvVar) :
    Checked (List EnvVar) :=
  (buildVariables "shared env var" requests (existing.map envVarEntry)).map fun entries =>
    entries.map fun entry => ⟨entry.1, entry.2.1, entry.2.2⟩

def buildServiceBuildArgs (requests : Option (List EnvVarRequest)) (existing : List BuildArg) :
    Checked (List BuildArg) :=
  (buildVariables "service build arg" requests
    (existing.map fun buildArg => (buildArg.key, buildArg.value, buildArg.isSecret))).map
    fun entries => entries.map fun entry => ⟨entry.1, entry.2.1, entry.2.2⟩

def validateMountName (name : String) : Bool :=
  !name.isEmpty && name.toList.all fun ch => Text.isAsciiAlphanumeric ch || ch = '-' || ch = '_'

def normalizeHostPath (value : Option String) : Checked (Option String) :=
  match normalizeOptionalString value with
  | none => .ok none
  | some path =>
      if !Path.isAbsolute path then
        .error (badRequest "mount host_path must be an absolute path")
      else if Path.mentionsParent path then
        .error (badRequest "mount host_path cannot contain '..'")
      else .ok (some path)

def pushMount (existing : List ServiceMount) (isAdmin : Bool) (parsed : List ServiceMount)
    (mount : ServiceMountRequest) : Checked (List ServiceMount) := do
  let name := Text.trim mount.name
  let target := Text.trim mount.target
  if !validateMountName name then
    throw (badRequest "invalid mount name. use letters, numbers, hyphens, or underscores")
  if !Text.startsWith target "/" then
    throw (badRequest "mount target must be an absolute container path")
  if parsed.any fun other => other.name = name then
    throw (badRequest ("duplicate mount name: " ++ name))
  if parsed.any fun other => other.target = target then
    throw (badRequest ("duplicate mount target: " ++ target))
  let hostPath ← normalizeHostPath mount.hostPath
  let isShared := mount.isShared.getD false
  if isShared && hostPath.isSome then
    throw (badRequest "a host path mount cannot also be a shared volume")
  -- non-admins may resubmit a host path an admin already set
  if hostPath.isSome && !isAdmin &&
      !existing.any (fun stored => stored.name = name && stored.hostPath = hostPath) then
    throw (forbidden "only admins can mount host paths")
  return parsed ++ [⟨name, target, mount.readOnly.getD false, hostPath, isShared⟩]

def buildServiceMounts (mounts : Option (List ServiceMountRequest)) (existing : List ServiceMount)
    (isAdmin : Bool) : Checked (List ServiceMount) :=
  (mounts.getD []).foldlM (pushMount existing isAdmin) []

def maxConfigFiles : Nat := 32

def maxConfigFileBytes : Nat := 256 * 1024

def isConfigFilePath (path : String) : Bool :=
  Text.startsWith path "/" && !Text.endsWith path "/" && !Path.mentionsParent path

def isShadowed (mounts : List ServiceMount) (path : String) : Bool :=
  mounts.any fun mount =>
    let target := Text.trimEndMatches mount.target '/'
    path = target || Text.startsWith path (target ++ "/")

def pushConfigFile (crates : Crates) (mounts : List ServiceMount) (parsed : List ConfigFile)
    (file : ConfigFileRequest) : Checked (List ConfigFile) := do
  let path := Text.trim file.path
  if !isConfigFilePath path then
    throw (badRequest ("config file path must be an absolute file path: " ++ crates.debug path))
  if maxConfigFileBytes < Text.byteLength file.content then
    throw (badRequest ("config file " ++ path ++ " is larger than " ++
      toString (maxConfigFileBytes / 1024) ++ " KiB"))
  if parsed.any fun other => other.path = path then
    throw (badRequest ("duplicate config file path: " ++ path))
  if isShadowed mounts path then
    throw (badRequest ("config file " ++ path ++
      " is inside a volume; put it outside the volume's path"))
  return parsed ++ [⟨path, file.content⟩]

def buildConfigFiles (crates : Crates) (files : List ConfigFileRequest)
    (mounts : List ServiceMount) : Checked (List ConfigFile) :=
  if maxConfigFiles < files.length then
    .error (badRequest ("a service can have at most " ++ toString maxConfigFiles ++
      " config files"))
  else files.foldlM (pushConfigFile crates mounts) []

def configFileRequest (file : ConfigFile) : ConfigFileRequest := ⟨file.path, file.content⟩

def loginGateScopeName : LoginGateScope → String
  | .owner => "owner"
  | .allUsers => "all_users"

def resolveLoginGate (requested : Option (Option LoginGateRequest)) (existing : Option LoginGate) :
    Checked (Option LoginGate) :=
  match requested with
  | none => .ok existing
  | some none => .ok none
  | some (some request) =>
      match request.scope.map Text.trim with
      | none | some "" | some "owner" => .ok (some ⟨.owner⟩)
      | some "all_users" => .ok (some ⟨.allUsers⟩)
      | some other => .error (badRequest ("unknown login gate scope " ++ other ++
          "; use owner or all_users"))

def normalizeDomain (crates : Crates) (input : String) : Option String :=
  let host := (Text.splitAt '/' (Text.trimStartMatches
    (Text.trimStartMatches (Text.trim input) "https://") "http://")).headD ""
  let trimmed := Text.trimEndMatches host '.'
  if trimmed.isEmpty then none else some (crates.toLowercase trimmed)

def normalizeDomains (crates : Crates) (domains : List String) : List String :=
  domains.foldl (fun normalized domain =>
    match normalizeDomain crates domain with
    | none => normalized
    | some value => if normalized.contains value then normalized else normalized ++ [value]) []

def normalizeHttpOnlyDomains (crates : Crates) (httpOnlyDomains domains : List String) :
    List String :=
  (normalizeDomains crates httpOnlyDomains).filter fun domain => domains.contains domain

def mergeDomains (crates : Crates) (domain : Option String) (domains : Option (List String)) :
    List String :=
  normalizeDomains crates (domains.getD [] ++ domain.toList)

def requestedServiceDomains (crates : Crates) (request : ServiceRequest) : Option (List String) :=
  if request.domain.isNone && request.domains.isNone then none
  else some (mergeDomains crates request.domain request.domains)

def requestedHttpOnlyDomains (crates : Crates) (request : ServiceRequest) :
    Option (List String) :=
  request.httpOnlyDomains.map (normalizeDomains crates)

/-- `None` for an empty list. -/
def someUnlessEmpty {Value : Type} (values : List Value) : Option (List Value) :=
  if values.isEmpty then none else some values

def mountRequestFromModel (mount : ServiceMount) : ServiceMountRequest where
  name := mount.name
  target := mount.target
  readOnly := some mount.readOnly
  hostPath := mount.hostPath
  isShared := some mount.isShared

def variableRequest (key value : String) (isSecret : Bool) : EnvVarRequest :=
  ⟨key, maskSecretValue isSecret value, some isSecret⟩

/-- A missing password keeps the stored hash. -/
def serviceRequestFromModel (service : ContainerService) : ServiceRequest where
  name := service.name
  image := normalizeOptionalString (some service.image)
  serviceType := some (serviceTypeName service.serviceType)
  port := service.port
  exposeHttp := some service.exposeHttp
  domains := someUnlessEmpty service.domains
  domain := none
  httpOnlyDomains := someUnlessEmpty service.customHttpOnlyDomains
  additionalPorts := someUnlessEmpty service.additionalPorts
  replicas := some service.replicas
  memoryLimitMb := service.memoryLimit.map fun bytes => bytes / 1024 / 1024
  cpuLimit := service.cpuLimit
  dependsOn := someUnlessEmpty service.dependsOn
  healthCheck := service.healthCheck.map fun check =>
    ⟨check.path, some check.intervalSecs, some check.timeoutSecs, some check.retries⟩
  restartPolicy := some (restartPolicyLabel service.restartPolicy)
  registryAuth := service.registryAuth.map fun auth =>
    ⟨auth.server, some auth.username, some (maskSecretValue true auth.password)⟩
  envVars := someUnlessEmpty (service.envVars.map fun envVar =>
    variableRequest envVar.key envVar.value envVar.isSecret)
  buildContext := service.buildContext
  dockerfilePath := service.dockerfilePath
  buildTarget := service.buildTarget
  buildArgs := someUnlessEmpty (service.buildArgs.map fun buildArg =>
    variableRequest buildArg.key buildArg.value buildArg.isSecret)
  command := service.command
  entrypoint := service.entrypoint
  workingDir := service.workingDir
  schedule := service.schedule
  mounts := someUnlessEmpty (service.mounts.map mountRequestFromModel)
  notes := some service.notes
  basicAuth := some (service.basicAuth.map fun auth => ⟨some auth.username, none⟩)
  loginGate := some (service.loginGate.map fun gate => ⟨some (loginGateScopeName gate.scope)⟩)
  portMappings := some (service.portMappings.map fun mapping =>
    ⟨mapping.hostPort, mapping.containerPort, some mapping.protocol.asStr⟩)
  files := some (service.files.map configFileRequest)

end Containr.Api
