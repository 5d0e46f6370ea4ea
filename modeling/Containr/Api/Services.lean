import Containr.Api.BuildServices
import Containr.Api.Deployments
import Containr.Cron.Scheduler

/-!
# The handlers that write an app

Creation, addition, update and deletion of services in
`containr-api/src/domain/services/mod.rs`, and the three places that save an app only to
store another name or a missing token. What `update_service` and `delete_service` do for
managed databases and queues is left out, and so are the steps of `update_service` behind
its save: they scale replicas, refresh routes and ask for certificates, and write no app.
-/

namespace Containr.Api.Services

open Containr.Effect

/-- What the handlers read of the configuration and of `AppState`. -/
structure Server where
  crates : Crates
  baseDomain : String
  publicIp : Option String
  httpPort : Nat
  httpsPort : Nat
  apiPort : Nat
  dataDir : String
  issuesCertificates : Bool
  updatesProxy : Bool

/-- `resolve_owned_service_record` for an id that is not a service of an app. -/
def resolveManagedRecord (userId serviceId : Uuid) : Handler Unit := do
  let database ← orInternal (ExceptT.mk (external (.managedDatabaseOwner serviceId)))
  match database with
  | some owner => ensure (owner = userId) (forbidden "access denied")
  | none => do
      let queue ← orInternal (ExceptT.mk (external (.managedQueueOwner serviceId)))
      match queue with
      | some owner => ensure (owner = userId) (forbidden "access denied")
      | none => throw (notFound "service not found")

/-- The app of a service and the service. `none`: the id is of a managed service. -/
def resolveOwnedServiceRecord (userId serviceId : Uuid) :
    Handler (Option (App × ContainerService)) := do
  match ← orInternal (Store.getService serviceId) with
  | some service => do
      let some app ← orInternal (Store.getApp service.appId)
        | throw (notFound "service group not found")
      ensure (app.ownerId = userId) (forbidden "access denied")
      return some (app, (lookup (·.id) serviceId app.services).getD service)
  | none => do
      resolveManagedRecord userId serviceId
      return none

def resolveOwnedAppServiceRecord (userId serviceId : Uuid) : Handler (App × ContainerService) := do
  let some found ← resolveOwnedServiceRecord userId serviceId
    | throw (badRequest "deployments are only supported for repository services")
  return found

def resolveGroupId (server : Server) (userId : Uuid) (groupId : String) : Handler Uuid := do
  let text := Text.trim groupId
  ensure (!text.isEmpty) (badRequest "group_id is required")
  let some id := server.crates.parseUuid text | throw (badRequest "group_id must be a valid uuid")
  let some group ← orInternal (Store.getApp id) | throw (notFound "group not found")
  ensure (group.ownerId = userId) (forbidden "access denied")
  return id

def userIsAdmin (userId : Uuid) : Handler Bool :=
  orInternal (ExceptT.mk (external (.userIsAdmin userId)))

def reservedPort (server : Server) (port : Nat) : Option String :=
  if server.httpPort = port then some "proxy http"
  else if server.httpsPort = port then some "proxy https"
  else if server.apiPort = port then some "api"
  else none

def namedMappings (app : App) : List (String × PortMapping) :=
  app.services.flatMap fun service => service.portMappings.map fun mapping => (service.name, mapping)

def claimPort (server : Server) (seen : List ((Nat × PortProtocol) × String))
    (entry : String × PortMapping) : Checked (List ((Nat × PortProtocol) × String)) := do
  let (name, mapping) := entry
  match reservedPort server mapping.hostPort with
  | some label => throw (badRequest ("host port " ++ toString mapping.hostPort ++
      " is reserved for the " ++ label ++ " port"))
  | none => pure ()
  match lookup Prod.fst (PortMapping.key mapping) seen with
  | some (_, other) => throw (badRequest ("host port " ++ toString mapping.hostPort ++ "/" ++
      mapping.protocol.asStr ++ " is mapped by both " ++ other ++ " and " ++ name))
  | none => return seen ++ [(PortMapping.key mapping, name)]

def checkOtherPorts (app : App) (seen : List ((Nat × PortProtocol) × String)) (apps : List App) :
    Checked Unit :=
  let mapped := ((apps.filter (·.id ≠ app.id)).flatMap (·.services)).flatMap (·.portMappings)
  match mapped.find? fun mapping => seen.any fun entry => entry.1 = PortMapping.key mapping with
  | some mapping => .error (conflict ("host port " ++ toString mapping.hostPort ++ "/" ++
      mapping.protocol.asStr ++ " is already mapped by another service"))
  | none => .ok ()

def validatePortMappings (server : Server) (app : App) : Handler Unit := do
  let seen ← checked ((namedMappings app).foldlM (claimPort server) [])
  if seen.isEmpty then
    return ()
  let apps ← orInternal Store.listApps
  checked (checkOtherPorts app seen apps)

def collectDomain (domains : List String) (domain : String) : Checked (List String) :=
  if domains.contains domain then .error (badRequest ("duplicate custom domain: " ++ domain))
  else .ok (domains ++ [domain])

def collectServiceDomains (domains : List String) (service : ContainerService) :
    Checked (List String) :=
  if !service.domains.isEmpty && !service.isPublicHttp then
    .error (badRequest "only web services can use custom domains")
  else service.customDomains.foldlM collectDomain domains

def hasPublicIp (server : Server) (addresses : List String) : Except String Bool :=
  match (server.publicIp.map Text.trim).filter fun text => !text.isEmpty with
  | none => .ok false
  | some text =>
      match server.crates.parseIp text with
      | none => .error "public_ip is not a valid IP address"
      | some address => .ok (addresses.contains address)

def pointsAtBase (baseDomain : String) (record : String) : Bool :=
  let target := Text.trimEndMatches record '.'
  Text.eqIgnoreAsciiCase target baseDomain ||
    Text.endsWith target ("." ++ Text.trimEndMatches baseDomain '.')

def validateTarget (baseDomain domain : String) (addresses : List String) : Fallible Unit := do
  let baseAddresses ← liftM (external (.lookupIp baseDomain))
  if addresses.any fun address => List.contains baseAddresses address then
    return ()
  let answer : Except String (List String) ← liftM (external (.lookupCname domain))
  match answer with
  | .error _ => throw "domain must resolve to the same public target as the base domain"
  | .ok records =>
      ensure (records.any (pointsAtBase baseDomain))
        "domain must resolve to the same public target as the base domain or CNAME to it"

def validateDomain (server : Server) (domain : String) : Fallible Unit := do
  let baseDomain := server.crates.toLowercase (Text.trim server.baseDomain)
  ensure (domain ≠ baseDomain) "domain is reserved for the dashboard"
  ensure (!Text.startsWith domain "www.") "www subdomains are not supported"
  let addresses ← liftM (external (.lookupIp domain))
  let served ← ExceptT.mk (.pure (hasPublicIp server addresses))
  if served then
    return ()
  validateTarget baseDomain domain addresses

def validateDomains (server : Server) (domains : List String) : Handler Unit :=
  ExceptT.mk (Program.forEach (fun domain => (validateDomain server domain).run.bind fun result =>
    .pure (match result with
      | .ok () => .ok ()
      | .error message => .error (badRequest message))) domains)

def getAppByDomain (domain : String) : Fallible (Option App) := do
  let apps ← Store.listApps
  return apps.find? fun app => app.customDomains.contains domain

def checkDomainUnused (appId : Uuid) (domain : String) : Handler Unit := do
  match ← orInternal (getAppByDomain domain) with
  | some existing => ensure (existing.id = appId) (conflict "domain already in use")
  | none => return ()

def validateAppServiceDomains (server : Server) (app : App) : Handler (List String) := do
  let domains ← checked (app.services.foldlM collectServiceDomains [])
  if domains.isEmpty then
    return []
  validateDomains server domains
  ExceptT.mk (Program.forEach (fun domain => (checkDomainUnused app.id domain).run) domains)
  return domains

/-- The two checks every request makes before it saves. -/
def validateApp (server : Server) (app : App) : Handler Unit := do
  validatePortMappings server app
  let _ ← validateAppServiceDomains server app

/-- `App::new` with the two ids it draws. -/
def newApp (name githubUrl : String) (ownerId : Uuid) : Sys App := do
  let now ← utcNow
  let id ← newUuid
  let token ← newUuid
  return {
    id := id
    name := name
    githubUrl := githubUrl
    branch := "main"
    domains := []
    envVars := []
    autoDeployEnabled := true
    autoDeployWatchPaths := []
    autoDeployCleanupStaleDeployments := true
    deployWebhookToken := some token.simple
    port := 8080
    services := []
    rolloutStrategy := .stopFirst
    ownerId := ownerId
    createdAt := now
    updatedAt := now }

def deleteApp (id : Uuid) : Fallible Bool := do
  let some app ← Store.getApp id | return false
  let deployments ← Store.listDeploymentsByApp app.id
  Program.forAll (fun deployment => ignore (Store.deleteDeployment deployment.id)) deployments
  Store.deleteApp id
  return true

def managedCertificateDomains (app : App) : List String :=
  (app.services.flatMap ContainerService.httpsDomains).foldl (fun domains domain =>
    if domains.contains domain then domains else domains ++ [domain]) []

def requestCertificates (server : Server) (app : App) : Sys Unit :=
  if server.issuesCertificates then
    Program.forAll (fun domain => external (.requestCertificate domain))
      (managedCertificateDomains app)
  else .pure ()

def firstDeployment (userId : Uuid) (app : App) (commitSha message : String) :
    Handler Deployment :=
  queueDeployment {
    ownerId := userId
    app := app
    commitSha := commitSha
    commitMessage := some message
    branch := app.branch
    rolloutStrategy := app.rolloutStrategy
    rollbackFromDeploymentId := none
    sourceOverride := none
    cleanupStaleDeployments := false
    localBuildServiceId := none }

def deployNew (userId : Uuid) (app : App) : Handler Unit := do
  let queued : Except ApiError Deployment ←
    liftM (firstDeployment userId app "initial" "initial deployment").run
  match queued with
  | .ok _ => return ()
  | .error error =>
      ignore (deleteApp app.id)
      throw error

def firstServiceId (app : App) : Handler Uuid :=
  match app.services.head? with
  | some service => pure service.id
  | none => throw internalError

structure RepositoryRequest where
  name : String
  githubUrl : String
  branch : Option String
  envVars : Option (List EnvVarRequest)
  service : ServiceRequest
  rolloutStrategy : Option String
  deploy : Bool

/-- The variables of a new repository app are taken as they come. -/
def requestedEnvVar (request : EnvVarRequest) : EnvVar :=
  ⟨request.key, request.value, request.isSecret.getD false⟩

/-- Everything before the save. -/
def prepareRepositoryApp (server : Server) (userId : Uuid) (request : RepositoryRequest) :
    Handler App := do
  ensure (!request.name.isEmpty && Text.byteLength request.name ≤ 64)
    (badRequest "name must be 1-64 characters")
  let service := if Text.blank request.service.name then
    { request.service with name := request.name } else request.service
  let created ← newApp request.name request.githubUrl userId
  let strategy ← checked (resolveRolloutStrategy request.rolloutStrategy created.rolloutStrategy)
  let isAdmin ← userIsAdmin userId
  let services ← buildServices server.crates created.id [] [service] isAdmin
  let app := { created with
    branch := request.branch.getD created.branch
    envVars := (request.envVars.map fun vars => vars.map requestedEnvVar).getD created.envVars
    rolloutStrategy := strategy
    services := services }
  ensure (!(request.deploy && app.requiresSourceCheckout && Text.blank app.githubUrl))
    (badRequest "github_url is required when a service needs a source build")
  validateApp server app
  return app

/-- Everything behind the save. -/
def finishCreation (server : Server) (userId : Uuid) (deploy : Bool) (app : App) :
    Handler Uuid := do
  if deploy then
    deployNew userId app
  requestCertificates server app
  firstServiceId app

def createRepositoryService (server : Server) (userId : Uuid) (request : RepositoryRequest) :
    Handler Uuid := do
  let app ← prepareRepositoryApp server userId request
  orInternal (Store.saveApp app)
  finishCreation server userId request.deploy app

structure StackRequest where
  name : String
  envVars : Option (List EnvVarRequest)
  services : List ServiceRequest

def needsImage (request : ServiceRequest) : Bool := Text.blank (request.image.getD "")

def stackImageError (name : String) : ApiError :=
  badRequest ("stack service " ++ Text.trim name ++
    " needs an image; source builds are not supported in stacks")

def prepareStackApp (server : Server) (userId : Uuid) (request : StackRequest) : Handler App := do
  let name := Text.trim request.name
  ensure (!name.isEmpty && Text.byteLength name ≤ 64) (badRequest "name must be 1-64 characters")
  ensure (!request.services.isEmpty) (badRequest "stack must define at least one service")
  match request.services.find? needsImage with
  | some service => throw (stackImageError service.name)
  | none => pure ()
  let created ← newApp name "" userId
  let envVars ← checked (buildAppEnvVars request.envVars [])
  let isAdmin ← userIsAdmin userId
  let services ← buildServices server.crates created.id [] request.services isAdmin
  let app := { created with envVars := envVars, services := services }
  ensure (!app.requiresSourceCheckout) (badRequest "stack services must use prebuilt images")
  validateApp server app
  return app

def createStackService (server : Server) (userId : Uuid) (request : StackRequest) :
    Handler Uuid := do
  let app ← prepareStackApp server userId request
  orInternal (Store.saveApp app)
  finishCreation server userId true app

structure ProjectAddition where
  githubUrl : Option String
  branch : Option String
  envVars : Option (List EnvVarRequest)
  services : List ServiceRequest
  requireImages : Bool
  deploy : Bool

/-- One round of the name check; `names` are those of the stored services and of the
earlier rounds. -/
def checkNewName (requireImages : Bool) (names : List String) (service : ServiceRequest) :
    Checked (List String) :=
  let name := Text.trim service.name
  if name.isEmpty then .error (badRequest "service name cannot be empty")
  else if names.contains name then
    .error (badRequest ("service name " ++ name ++ " already exists in this project"))
  else if requireImages && needsImage service then .error (stackImageError name)
  else .ok (names ++ [name])

def sameRepository (current other : String) : Bool :=
  Text.trimEndText current ".git" = Text.trimEndText other ".git"

def addRepository (addition : ProjectAddition) (app : App) : Checked App :=
  match nonEmpty addition.githubUrl with
  | none => .ok app
  | some githubUrl =>
      let current := Text.trim app.githubUrl
      if current.isEmpty then
        .ok { app with
          githubUrl := githubUrl
          branch := (nonEmpty addition.branch).getD app.branch }
      else if !sameRepository current githubUrl then
        .error (badRequest
          "a project builds from a single repository; use an image or create a new project")
      else .ok app

def addEnvVars (addition : ProjectAddition) (app : App) : Checked App :=
  match addition.envVars with
  | none => .ok app
  | some requests => do
      let added ← buildAppEnvVars (some requests) []
      return { app with
        envVars := added.foldl (fun vars envVar =>
          if vars.any fun existing => existing.key = envVar.key then vars else vars ++ [envVar])
          app.envVars }

def deployEnlarged (userId : Uuid) (previous app : App) : Handler Unit := do
  let queued : Except ApiError Deployment ←
    liftM (firstDeployment userId app "manual" "deployment after adding services").run
  match queued with
  | .ok _ => return ()
  | .error error =>
      ignore (Store.saveApp previous)
      throw error

def refreshProxyRoutes (server : Server) (appId : Uuid) : Sys Unit :=
  if server.updatesProxy then external (.sendProxyRefresh appId) else .pure ()

/-- The project as it was read and as it is to be saved. -/
structure Enlarged where
  previous : App
  app : App
  firstId : Uuid

def prepareAddition (server : Server) (userId : Uuid) (groupId : String)
    (addition : ProjectAddition) : Handler Enlarged := do
  let appId ← resolveGroupId server userId groupId
  let some previous ← orInternal (Store.getApp appId) | throw (notFound "group not found")
  ensure (!addition.services.isEmpty) (badRequest "at least one service is required")
  let _ ← checked (addition.services.foldlM (checkNewName addition.requireImages)
    (previous.services.map (·.name)))
  let joined ← checked (addRepository addition previous)
  let extended ← checked (addEnvVars addition joined)
  let isAdmin ← userIsAdmin userId
  let added ← buildServices server.crates previous.id [] addition.services isAdmin
  let some first := added.head? | throw internalError
  let combined := { extended with services := previous.services ++ added }
  ensure (!(addition.deploy && combined.requiresSourceCheckout && Text.blank combined.githubUrl))
    (badRequest "github_url is required when a service needs a source build")
  validateApp server combined
  let now ← utcNow
  return ⟨previous, { combined with updatedAt := now }, first.id⟩

def finishAddition (server : Server) (userId : Uuid) (deploy : Bool) (enlarged : Enlarged) :
    Handler Uuid := do
  if deploy then
    deployEnlarged userId enlarged.previous enlarged.app
  requestCertificates server enlarged.app
  refreshProxyRoutes server enlarged.app.id
  return enlarged.firstId

def addServicesToProject (server : Server) (userId : Uuid) (groupId : String)
    (addition : ProjectAddition) : Handler Uuid := do
  let enlarged ← prepareAddition server userId groupId addition
  orInternal (Store.saveApp enlarged.app)
  finishAddition server userId addition.deploy enlarged

structure AutoDeploySettingsRequest where
  enabled : Option Bool
  watchPaths : Option (List String)
  cleanupStaleDeployments : Option Bool
  regenerateWebhookToken : Option Bool

structure UpdateServiceRequest where
  githubUrl : Option String
  branch : Option String
  envVars : Option (List EnvVarRequest)
  rolloutStrategy : Option String
  autoDeploy : Option AutoDeploySettingsRequest
  service : Option ServiceRequest

def tokenMissing (app : App) : Bool := Text.blank (app.deployWebhookToken.getD "")

def ensureDeployWebhookToken (app : App) : Sys App :=
  if tokenMissing app then do
    let token ← newUuid
    return { app with deployWebhookToken := some token.simple }
  else .pure app

def updateAutoDeploy (request : AutoDeploySettingsRequest) (app : App) : Handler App := do
  let watchPaths ← checked (match request.watchPaths with
    | some paths => normalizeWatchPaths paths
    | none => .ok app.autoDeployWatchPaths)
  let updated := { app with
    autoDeployEnabled := request.enabled.getD app.autoDeployEnabled
    autoDeployWatchPaths := watchPaths
    autoDeployCleanupStaleDeployments :=
      request.cleanupStaleDeployments.getD app.autoDeployCleanupStaleDeployments }
  if request.regenerateWebhookToken = some true then
    liftM (ensureDeployWebhookToken { updated with deployWebhookToken := none })
  else return updated

def updateAppSettings (request : UpdateServiceRequest) (app : App) : Handler App := do
  let branch ← checked (match request.branch with
    | none => .ok app.branch
    | some branch =>
        if Text.blank branch then .error (badRequest "branch cannot be empty")
        else .ok (Text.trim branch))
  let envVars ← checked (match request.envVars with
    | none => .ok app.envVars
    | some requests => buildAppEnvVars (some requests) app.envVars)
  let strategy ← checked (resolveRolloutStrategy request.rolloutStrategy app.rolloutStrategy)
  let updated := { app with
    githubUrl := (request.githubUrl.map Text.trim).getD app.githubUrl
    branch := branch
    envVars := envVars
    rolloutStrategy := strategy }
  match request.autoDeploy with
  | some autoDeploy => updateAutoDeploy autoDeploy updated
  | none => return updated

def updateRequests (serviceId : Uuid) (request : ServiceRequest)
    (services : List ContainerService) : List ServiceRequest :=
  services.map fun service =>
    if service.id = serviceId then request else serviceRequestFromModel service

/-- `build_services` matches by name, so the rename is carried onto the existing record to
keep the service id stable. -/
def carryRename (serviceId : Uuid) (name : String) : List ContainerService → List ContainerService
  | [] => []
  | service :: rest =>
      if service.id = serviceId then { service with name := name } :: rest
      else service :: carryRename serviceId name rest

def updatedServices (server : Server) (userId serviceId : Uuid) (request : Option ServiceRequest)
    (app : App) : Handler (List ContainerService) :=
  match request with
  | none => pure app.services
  | some request => do
      let isAdmin ← userIsAdmin userId
      buildServices server.crates app.id
        (carryRename serviceId (Text.trim request.name) app.services)
        (updateRequests serviceId request app.services) isAdmin

inductive MountMigration where
  | moveToShared (source target : String)
  | copyFromShared (source target : String)
deriving DecidableEq, Repr

def appMountRoot (dataDir : String) (appId : Uuid) : String :=
  Path.join (Path.join (Path.join dataDir "builds") "app-mounts") appId.toString

def serviceMountRoot (dataDir : String) (appId serviceId : Uuid) : String :=
  Path.join (appMountRoot dataDir appId) serviceId.toString

def isEmptyDir (path : String) : Handler Bool :=
  orInternal (ExceptT.mk (external (.isEmptyDir path)))

def planMount (crates : Crates) (isShared : Bool) (name ownPath sharedPath : String) :
    Handler (List MountMigration) := do
  if isShared then
    if ← isEmptyDir ownPath then
      return []
    ensure (← isEmptyDir sharedPath) (conflict ("the shared volume " ++ crates.debug name ++
      " already has data, and so does this service's " ++ crates.debug name ++
      " volume. rename the volume or empty one of them first"))
    return [.moveToShared ownPath sharedPath]
  else
    if ← isEmptyDir ownPath then
      if !(← isEmptyDir sharedPath) then
        return [.copyFromShared sharedPath ownPath]
    return []

/-- A volume of both versions that is managed and switches sides. -/
def planMountChange (server : Server) (appId : Uuid) (previous : ContainerService)
    (mount : ServiceMount) : Handler (List MountMigration) :=
  match lookup (·.name) mount.name previous.mounts with
  | none => pure []
  | some before =>
      if before.hostPath.isNone && mount.hostPath.isNone && before.isShared ≠ mount.isShared then
        planMount server.crates mount.isShared mount.name
          (Path.join (serviceMountRoot server.dataDir appId previous.id) mount.name)
          (Path.join (Path.join (appMountRoot server.dataDir appId) sharedMountsDir) mount.name)
      else pure []

def planMounts (server : Server) (appId : Uuid) (previous : ContainerService) :
    List ServiceMount → Handler (List MountMigration)
  | [] => pure []
  | mount :: rest => do
      let migrations ← planMountChange server appId previous mount
      let others ← planMounts server appId previous rest
      return migrations ++ others

def undoMigrations (moved : List MountMigration) : Sys Unit :=
  Program.forAll (fun migration => match migration with
    | .moveToShared source target => (external (.rename target source)).bind fun _ => .pure ()
    | .copyFromShared _ _ => .pure ()) moved.reverse

def runMigration : MountMigration → Sys (Except String Unit)
  | .moveToShared source target => external (.moveDir source target)
  | .copyFromShared source target => external (.copyDir source target)

/-- Returns the moves that happened; `moved` are those of the earlier rounds. -/
def applyMigrations (moved : List MountMigration) :
    List MountMigration → Handler (List MountMigration)
  | [] => pure moved
  | migration :: rest => do
      let result : Except String Unit ← liftM (runMigration migration)
      match result, migration with
      | .error _, _ => do
          undoMigrations moved
          throw internalError
      | .ok (), .moveToShared source target =>
          applyMigrations (moved ++ [.moveToShared source target]) rest
      | .ok (), .copyFromShared _ _ => applyMigrations moved rest

def saveUpdated (app : App) (moved : List MountMigration) : Handler Unit := do
  let saved : Except String Unit ← liftM (Store.saveApp app).run
  match saved with
  | .ok () => return ()
  | .error _ =>
      undoMigrations moved
      throw internalError

/-- The app to be saved, the service as it was and as it is, and the volumes that moved. -/
structure Updated where
  app : App
  previousService : ContainerService
  updatedService : ContainerService
  moved : List MountMigration

def prepareUpdate (server : Server) (userId serviceId : Uuid) (request : UpdateServiceRequest) :
    Handler Updated := do
  let (current, previousService) ← resolveOwnedAppServiceRecord userId serviceId
  let settled ← updateAppSettings request current
  let services ← updatedServices server userId serviceId request.service settled
  let edited := { settled with services := services }
  ensure (!(edited.requiresSourceCheckout && Text.blank edited.githubUrl &&
      !Text.blank current.githubUrl))
    (badRequest "github_url is required when a service needs a source build")
  let some updatedService := lookup (·.id) serviceId services | throw internalError
  validateApp server edited
  let migrations ← planMounts server edited.id previousService updatedService.mounts
  let moved ← applyMigrations [] migrations
  let now ← utcNow
  return ⟨{ edited with updatedAt := now }, previousService, updatedService, moved⟩

def updateService (server : Server) (userId serviceId : Uuid) (request : UpdateServiceRequest) :
    Handler Updated := do
  let updated ← prepareUpdate server userId serviceId request
  saveUpdated updated.app updated.moved
  return updated

def deploymentHasServiceImage (deployment : Deployment) (service : ContainerService) : Bool :=
  !Text.blank service.image || deployment.imageId.isSome ||
    deployment.serviceDeployments.any fun row => row.serviceId = service.id && row.imageId.isSome

def resolveAppServiceDeployment (app : App) (service : ContainerService) :
    Handler (Option Deployment) := do
  let deployments ← orInternal (Store.listDeploymentsByApp app.id)
  let sorted := deployments.insertionSort fun left right => right.createdAt ≤ left.createdAt
  let running := sorted.find? fun deployment =>
    deployment.status = .running && deploymentHasServiceImage deployment service
  return running.orElse fun _ =>
    sorted.find? fun deployment => deploymentHasServiceImage deployment service

def persistDeployment (deployment : Deployment) : Handler Unit := do
  orInternal (Store.saveDeployment deployment)
  ExceptT.mk (Program.forEach (fun row => (orInternal (Store.saveServiceDeployment row)).run)
    deployment.serviceDeployments)

def stopServiceReplica (container : String) : Sys Unit := do
  stopContainer container
  removeContainer container

/-- The row of a service whose containers are stopped; `stopping` also stops them. -/
def stopServiceRow (serviceId : Uuid) (stopping : Bool) (row : ServiceDeployment) :
    Sys ServiceDeployment :=
  if row.serviceId = serviceId then do
    if stopping then
      Program.forAll stopServiceReplica row.containerId.toList
    let now ← utcNow
    return { row with status := .stopped, finishedAt := some now, containerId := none }
  else .pure row

def stopServiceRows (serviceId : Uuid) (stopping : Bool) :
    List ServiceDeployment → Sys (List ServiceDeployment)
  | [] => .pure []
  | row :: rest => do
      let stopped ← stopServiceRow serviceId stopping row
      let others ← stopServiceRows serviceId stopping rest
      return stopped :: others

def cronContainerFront (app : App) (service : ContainerService) : String :=
  "containr-cron-" ++ Cron.shortId app.id.toString ++ "-" ++
    Cron.truncateName (Cron.sanitizeName service.name) 12 ++ "-"

def stopCronContainers (app : App) (service : ContainerService) : Handler Bool := do
  if !service.isCronJob then
    return false
  let listed : Except String (List Containr.Container) ← liftM (docker .listContainers).run
  match listed with
  | .error message => throw ⟨500, "failed to stop service: " ++ message⟩
  | .ok containers =>
      let names := (containers.map (·.name)).filter fun name =>
        Text.startsWith name (cronContainerFront app service)
      Program.forAll stopServiceReplica names
      return !names.isEmpty

def stopAppService (server : Server) (app : App) (service : ContainerService) : Handler Unit := do
  let some deployment ← resolveAppServiceDeployment app service
    | throw (badRequest "service has not been deployed")
  orInternal (ExceptT.mk (external .serviceManager))
  let cronStopped ← stopCronContainers app service
  let rows ← stopServiceRows service.id true deployment.serviceDeployments
  if cronStopped || deployment.serviceDeployments.any (fun row => row.serviceId = service.id) then
    persistDeployment { deployment with serviceDeployments := rows }
    if service.isPublicHttp then
      refreshProxyRoutes server app.id

def deleteAppRuntime (server : Server) (app : App) : Handler Unit := do
  let containers ← orInternal (docker .listContainers)
  let names := (List.map Containr.Container.name containers).filter fun name =>
    Text.startsWith name ("containr-" ++ app.id.toString) ||
      Text.startsWith name ("containr-cron-" ++ Cron.shortId app.id.toString ++ "-")
  Program.forAll stopServiceReplica names
  orInternal (ExceptT.mk (external (.removeNetwork app.networkName)))
  let roots := app.services.map (fun service => serviceMountRoot server.dataDir app.id service.id) ++
    [Path.join (appMountRoot server.dataDir app.id) sharedMountsDir]
  ExceptT.mk (Program.forEach (fun root => (external (.removeDirAll root)).bind fun removed =>
    .pure (match removed with
      | .ok () | .error .notFound => .ok ()
      | .error (.other _) => .error internalError)) roots)

def closeDeployment (serviceId : Uuid) (deployment : Deployment) : Handler Unit := do
  if deployment.serviceDeployments.any fun row => row.serviceId = serviceId then
    let rows ← stopServiceRows serviceId false deployment.serviceDeployments
    persistDeployment { deployment with serviceDeployments := rows }

def deleteLastService (server : Server) (app : App) (service : ContainerService) :
    Handler Unit := do
  ignore (stopAppService server app service)
  deleteAppRuntime server app
  let _ ← orInternal (deleteApp app.id)
  refreshProxyRoutes server app.id

def finishDeletion (server : Server) (app : App) (service : ContainerService) : Handler Unit := do
  let deployments ← orInternal (Store.listDeploymentsByApp app.id)
  ExceptT.mk (Program.forEach (fun deployment => (closeDeployment service.id deployment).run)
    deployments)
  let removed : Except FileError Unit ← liftM
    (external (.removeDirAll (serviceMountRoot server.dataDir app.id service.id)))
  match removed with
  | .error (.other _) => throw internalError
  | .ok () | .error .notFound => pure ()
  if service.isPublicHttp then
    refreshProxyRoutes server app.id
  requestCertificates server app

def withoutService (app : App) (serviceId : Uuid) (now : Time) : App :=
  { app with
    services := app.services.filter fun candidate => candidate.id ≠ serviceId
    updatedAt := now }

def deleteAppService (server : Server) (app : App) (service : ContainerService) :
    Handler Unit := do
  if app.services.length = 1 then
    deleteLastService server app service
  else
    ignore (stopAppService server app service)
    let now ← utcNow
    orInternal (Store.saveApp (withoutService app service.id now))
    finishDeletion server (withoutService app service.id now) service

def deleteService (server : Server) (userId serviceId : Uuid) : Handler Unit := do
  match ← resolveOwnedServiceRecord userId serviceId with
  | some (app, service) => deleteAppService server app service
  | none => return ()

/-- `update_project` of `containr-api/src/handlers/projects.rs`. -/
def updateProject (server : Server) (userId id : Uuid) (requestedName : String) :
    Handler App := do
  let name := Text.trim requestedName
  ensure (!name.isEmpty && name.length ≤ 64) (badRequest "name must be 1-64 characters")
  let found ← orInternal (Store.getApp id)
  let some app := found.filter fun app => app.ownerId = userId
    | throw (notFound "project not found")
  let now ← utcNow
  let renamed := { app with name := name, updatedAt := now }
  orInternal (Store.saveApp renamed)
  refreshProxyRoutes server app.id
  return renamed

def withWebhookToken (app : App) : Handler App := do
  let tokened ← ensureDeployWebhookToken app
  if tokenMissing app then
    orInternal (Store.saveApp tokened)
  return tokened

def getServiceSettings (userId serviceId : Uuid) : Handler (App × ContainerService) := do
  let (app, service) ← resolveOwnedAppServiceRecord userId serviceId
  let tokened ← withWebhookToken app
  return (tokened, service)

/-- `trigger_service_deployment`, `rollback_service_deployment`, `deploy_local_source` and the
webhooks load an app and pass it to `create_and_queue_deployment` with arguments of their
own. -/
def deployStored (id : Uuid) (request : App → DeploymentRequest) : Handler Deployment := do
  let some app ← orInternal (Store.getApp id) | throw (notFound "app not found")
  queueDeployment { request app with app := app }

/-- `deploy_webhook` of `containr-api/src/handlers/webhooks.rs`. -/
def deployWebhook (serviceId : Uuid) (token : String) (request : App → DeploymentRequest) :
    Handler Deployment := do
  let some service ← orInternal (Store.getService serviceId)
    | throw (notFound "service not found")
  let some app ← orInternal (Store.getApp service.appId)
    | throw (notFound "service group not found")
  let tokened ← withWebhookToken app
  ensure (tokened.deployWebhookToken = some token) ⟨401, "invalid deploy webhook token"⟩
  queueDeployment { request tokened with app := tokened }

end Containr.Api.Services
