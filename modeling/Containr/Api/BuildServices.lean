import Containr.Api.ServiceFields
import Containr.Store

/-!
# `build_services`

The loop of `containr-api/src/domain/services/mod.rs` that turns the requests of a whole
app into its services. A request is matched with a stored service by name; an unmatched
name draws a new id.
-/

namespace Containr.Api

open Containr.Effect

/-- `ApiResult` of a check without effects. -/
def checked {Value : Type} (result : Checked Value) : Handler Value := ExceptT.mk (.pure result)

def basicAuthPasswordHash (password : Option String) (existing : Option BasicAuth) :
    Handler String :=
  match password.filter fun text => !text.isEmpty, existing with
  | some text, _ => orInternal (ExceptT.mk (external (.hashPassword text)))
  | none, some stored => pure stored.passwordHash
  | none, none => throw (badRequest "basic auth password is required when enabling it")

/-- An absent value keeps the stored one; a null or an empty username disables it. -/
def resolveServiceBasicAuth (value : Option (Option BasicAuthRequest))
    (existing : Option BasicAuth) : Handler (Option BasicAuth) :=
  match value with
  | none => pure existing
  | some none => pure none
  | some (some request) =>
      match normalizeOptionalString request.username with
      | none => pure none
      | some username => do
          ensure (!username.toList.contains ':')
            (badRequest "basic auth username cannot contain ':'")
          let hash ← basicAuthPasswordHash request.password existing
          return some ⟨username, hash⟩

def registryPassword (password : Option String) (existing : Option ServiceRegistryAuth) :
    Handler String :=
  match password.filter fun text => text ≠ secretMask, existing with
  | some text, _ => ExceptT.mk ((external (.encryptValue text)).bind fun result =>
      .pure (match result with
        | .ok encrypted => .ok encrypted
        | .error message => .error ⟨500, message⟩))
  | none, some stored => pure stored.password
  | none, none => throw (badRequest "registry password is required for new registry auth")

def buildServiceRegistryAuth (existing : Option ServiceRegistryAuth)
    (request : Option ServiceRegistryAuthRequest) : Handler (Option ServiceRegistryAuth) :=
  match request with
  | none => pure existing
  | some request =>
      let server := normalizeOptionalString request.server
      let username := normalizeOptionalString request.username
      let password := normalizeOptionalString request.password
      if server.isNone && username.isNone && password.isNone then pure none
      else match username with
        | none => throw (badRequest "registry username is required when registry auth is set")
        | some username => do
            let password ← registryPassword password existing
            return some ⟨server, username, password⟩

def checkServiceKind (request : ServiceRequest) (serviceType : ServiceType)
    (requestedDomains : Option (List String)) (schedule : Option String) : Checked Unit := do
  let wantsDomains := requestedDomains.any fun domains => !domains.isEmpty
  if serviceType = .backgroundWorker ∨ serviceType = .cronJob then
    if request.exposeHttp = some true then
      throw (badRequest "background workers cannot receive public http traffic")
    if wantsDomains then
      throw (badRequest "only web services can use custom domains")
  else if request.port = 0 then
    throw (badRequest "web and private services require a container port")
  if serviceType = .privateService && wantsDomains then
    throw (badRequest "only web services can use custom domains")
  if (serviceType = .backgroundWorker ∨ serviceType = .cronJob) && request.port = 0 &&
      request.healthCheck.isSome then
    throw (badRequest "background workers need a port before enabling http health checks")
  if serviceType = .cronJob then
    if request.port ≠ 0 then
      throw (badRequest "cron jobs must use port 0")
    if request.replicas.getD 1 ≠ 1 then
      throw (badRequest "cron jobs support exactly one replica")
    if request.additionalPorts.any fun ports => !ports.isEmpty then
      throw (badRequest "cron jobs cannot expose additional ports")
    if schedule.isNone then
      throw (badRequest "cron jobs require a schedule")
  else if schedule.isSome then
    throw (badRequest "schedule is only supported for cron jobs")

def serviceDomains (serviceType : ServiceType) (requestedDomains : Option (List String))
    (service : ContainerService) : List String :=
  if serviceType = .webService then requestedDomains.getD service.customDomains else []

def serviceHttpOnlyDomains (crates : Crates) (serviceType : ServiceType)
    (requestedHttpOnly : Option (List String)) (domains : List String)
    (service : ContainerService) : List String :=
  if serviceType = .webService then
    normalizeHttpOnlyDomains crates
      (requestedHttpOnly.getD { service with domains := domains }.customHttpOnlyDomains) domains
  else []

def newService (appId : Uuid) (name : String) (request : ServiceRequest) :
    Sys ContainerService := do
  let id ← newUuid
  let now ← utcNow
  return ContainerService.new id now appId name (request.image.getD "") request.port

/-- `existing_by_name`: of two services with one name the last is kept. -/
def existingOrNew (appId : Uuid) (existing : List ContainerService) (name : String)
    (request : ServiceRequest) : Sys ContainerService :=
  match lookup (·.name) name existing.reverse with
  | some service => .pure service
  | none => newService appId name request

/-- The assignments of one round of the loop. -/
def configureService (crates : Crates) (appId : Uuid) (isAdmin : Bool) (name : String)
    (request : ServiceRequest) (service : ContainerService) (serviceType : ServiceType)
    (schedule : Option String) : Handler ContainerService := do
  let additionalPorts ← checked
    (normalizeAdditionalPorts request.additionalPorts service.additionalPorts request.port)
  let registryAuth ← buildServiceRegistryAuth service.registryAuth request.registryAuth
  let envVars ← checked (buildServiceEnvVars request.envVars service.envVars)
  let domains := serviceDomains serviceType (requestedServiceDomains crates request) service
  let buildContext ← checked (normalizeRepoRelativePath "service build context"
    request.buildContext service.buildContext)
  let dockerfilePath ← checked (normalizeRepoRelativePath "service dockerfile path"
    request.dockerfilePath service.dockerfilePath)
  let buildArgs ← checked (buildServiceBuildArgs request.buildArgs service.buildArgs)
  let workingDir ← checked (normalizeWorkingDir request.workingDir service.workingDir)
  let mounts ← checked (buildServiceMounts request.mounts service.mounts isAdmin)
  let notes ← checked (resolveServiceNotes request.notes service.notes)
  let basicAuth ← resolveServiceBasicAuth request.basicAuth service.basicAuth
  let loginGate ← checked (resolveLoginGate request.loginGate service.loginGate)
  ensure (!(basicAuth.isSome && loginGate.isSome)) (badRequest ("service " ++ name ++
    " can use basic auth or the containr login, not both"))
  let portMappings ← checked
    (resolvePortMappings request.portMappings service.portMappings serviceType)
  -- re-checked when only the volumes change, so a new volume can't hide an existing file
  let files ← checked (buildConfigFiles crates
    (request.files.getD (service.files.map configFileRequest)) mounts)
  let now ← utcNow
  return { service with
    appId := appId
    name := name
    image := request.image.getD ""
    serviceType := serviceType
    port := request.port
    exposeHttp := serviceType = .webService
    additionalPorts := additionalPorts
    replicas := request.replicas.getD 1
    memoryLimit := request.memoryLimitMb.map fun value => value * 1024 * 1024 % 2 ^ 64
    cpuLimit := request.cpuLimit
    dependsOn := request.dependsOn.getD []
    registryAuth := registryAuth
    envVars := envVars
    domains := domains
    httpOnlyDomains := serviceHttpOnlyDomains crates serviceType
      (requestedHttpOnlyDomains crates request) domains service
    buildContext := buildContext
    dockerfilePath := dockerfilePath
    buildTarget := match request.buildTarget with
      | some target => normalizeOptionalString (some target)
      | none => service.buildTarget
    buildArgs := buildArgs
    command := normalizeOptionalArgs request.command service.command
    entrypoint := normalizeOptionalArgs request.entrypoint service.entrypoint
    workingDir := workingDir
    schedule := schedule
    mounts := mounts
    notes := notes
    basicAuth := basicAuth
    loginGate := loginGate
    portMappings := portMappings
    files := files
    healthCheck := request.healthCheck.map fun check =>
      ⟨check.path, check.intervalSecs.getD 30, check.timeoutSecs.getD 5, check.retries.getD 3⟩
    restartPolicy := parseRestartPolicy crates request.restartPolicy
    updatedAt := now }

def buildService (crates : Crates) (appId : Uuid) (existing : List ContainerService)
    (isAdmin : Bool) (name : String) (request : ServiceRequest) : Handler ContainerService := do
  let service ← existingOrNew appId existing name request
  let serviceType ← checked (resolveServiceType request service.serviceType)
  let schedule ← checked (normalizeCronSchedule crates request.schedule service.schedule)
  checked (checkServiceKind request serviceType (requestedServiceDomains crates request) schedule)
  configureService crates appId isAdmin name request service serviceType schedule

/-- The loop; `seen` are the names of the earlier rounds. -/
def buildEach (crates : Crates) (appId : Uuid) (existing : List ContainerService)
    (isAdmin : Bool) : List String → List ServiceRequest → Handler (List ContainerService)
  | _, [] => pure []
  | seen, request :: rest => do
      let name := Text.trim request.name
      ensure (!name.isEmpty) (badRequest "service name cannot be empty")
      ensure (!seen.contains name) (badRequest ("duplicate service name: " ++ name))
      let service ← buildService crates appId existing isAdmin name request
      let others ← buildEach crates appId existing isAdmin (name :: seen) rest
      return service :: others

def buildServices (crates : Crates) (appId : Uuid) (existing : List ContainerService)
    (requests : List ServiceRequest) (isAdmin : Bool) : Handler (List ContainerService) := do
  ensure (!requests.isEmpty) (badRequest "services must define at least one service")
  buildEach crates appId existing isAdmin [] requests

end Containr.Api
