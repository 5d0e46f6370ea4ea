import Containr.Proxy.Admission

/-!
# `refresh_routes_for_app` of `containr/src/main.rs`

The rebuild of an app's routes, call by call: the database, docker and the route
table are asked one after the other while requests go on looking routes up.
-/

namespace Containr.Proxy

open Containr.Effect Containr.Effect.Program

variable {lib : Libraries}

def selectExposedService (app : App) : Option ContainerService :=
  (app.services.find? fun service => service.isPublicHttp && service.name = "web").orElse fun _ =>
    app.services.find? ContainerService.isPublicHttp

def exposedServices (app : App) : List ContainerService :=
  app.services.filter ContainerService.isPublicHttp

def appSubdomain (app : App) (baseDomain : String) : String := app.name ++ "." ++ baseDomain

def serviceSubdomain (service : ContainerService) (baseDomain : String) : String :=
  (defaultServiceDomain service.id baseDomain).getD service.name

def domainsForService (service : ContainerService) (baseDomain : String) : List String :=
  service.customDomains.foldl (fun domains domain =>
    if domains.contains domain then domains else domains ++ [domain])
    [serviceSubdomain service baseDomain]

def activeHttpContainerIds (deployment : Deployment) (serviceId : Uuid) : Option (List String) :=
  let recorded := (deployment.serviceDeployments.filter fun replica =>
    replica.serviceId = serviceId).filterMap ServiceDeployment.containerId
  if recorded.isEmpty then none else some recorded

/-- `containr-{app}-{service}-{replica}-{id}`. -/
def isServiceContainerName (name servicePrefix : String) : Bool :=
  match (Text.stripFront name servicePrefix).bind (Text.splitOnce '-') with
  | none => false
  | some (replica, deploymentId) =>
      !replica.isEmpty && replica.toList.all Char.isDigit && !deploymentId.isEmpty &&
        deploymentId.toList.all Text.isAsciiHexdigit

def runtimeService (app : App) (deployment : Option Deployment) (service : ContainerService) :
    ContainerService :=
  let runtimeApp := (deployment.bind Deployment.appSnapshot).getD app
  (runtimeApp.services.find? fun candidate => candidate.id = service.id).getD service

/-- The containers a service is routed to: the recorded ones, else those with its name. -/
def servesService (app : App) (deployment : Option Deployment) (service : ContainerService)
    (name : String) : Bool :=
  match deployment.bind fun deployment => activeHttpContainerIds deployment service.id with
  | some active => active.contains name
  | none => isServiceContainerName name ("containr-" ++ app.id.toString ++ "-" ++
      (runtimeService app deployment service).name ++ "-")

def containerNames (containers : List (Option (List String))) : List String :=
  ((containers.flatMap fun names => names.getD []).map fun name =>
    Text.trimStartMatches name "/").filter fun name => !name.isEmpty

def pickAddress (networks : List (String × Option String)) (networkName : String) :
    Option String :=
  let address (network : String × Option String) : Option String :=
    network.2.filter fun ip => !ip.isEmpty
  ((networks.find? fun network => network.1 = networkName).bind address).orElse fun _ =>
    networks.findSome? address

def getContainerIp (name networkName : String) : Prog lib (Option String) :=
  (ask (.networksOf name)).bind fun networks =>
    .pure (networks.bind fun networks => pickAddress networks networkName)

def collectUpstreams (app : App) (deployment : Option Deployment) (service : ContainerService)
    (containers : List (Option (List String))) : Prog lib (List Upstream) :=
  fold (fun upstreams name =>
    if servesService app deployment service name then
      (getContainerIp name app.networkName).bind fun ip =>
        .pure (upstreams ++ ip.toList.map fun host =>
          ⟨host, (runtimeService app deployment service).port⟩)
    else .pure upstreams) (containerNames containers) []

def serviceRoute (app : App) (algorithm : LoadBalanceAlgorithm) (service : ContainerService)
    (upstreams : List Upstream) (domain : String) : Route where
  domain := domain
  appId := some app.id
  serviceId := some service.id
  upstreams := upstreams
  sslEnabled := service.domainHttpsEnabled domain
  algorithm := algorithm
  basicAuth := service.basicAuth
  loginGate := service.loginGate.map fun gate => ⟨app.ownerId, gate.scope⟩

/-- Removes the listed routes that `pick` chooses. -/
def removeListed (pick : Route → Bool) : Prog lib Unit :=
  (ask .listRoutes).bind fun routes =>
    forAll (fun domain => ask (.removeRoute domain)) ((routes.filter pick).map Route.domain)

def taggedWith (appId : Uuid) (route : Route) : Bool := route.appId = some appId

def serviceSuffix (app : App) (baseDomain : String) : String :=
  "." ++ app.name ++ "." ++ baseDomain

def removeAppRoutes (app : App) (baseDomain : String) : Prog lib Unit :=
  (removeListed (taggedWith app.id)).bind fun _ =>
    (forAll (fun domain => ask (.removeRoute domain))
        (appSubdomain app baseDomain :: app.customDomains)).bind fun _ =>
      removeListed fun route => Text.endsWith route.domain (serviceSuffix app baseDomain)

def addServiceRoutes (app : App) (algorithm : LoadBalanceAlgorithm) (baseDomain : String)
    (deployment : Option Deployment) (containers : List (Option (List String)))
    (service : ContainerService) : Prog lib Unit :=
  (collectUpstreams app deployment service containers).bind fun upstreams =>
    forAll (fun domain => ask (.addRoute (serviceRoute app algorithm service upstreams domain)))
      (domainsForService service baseDomain)

def rebuildRoutes (app : App) (algorithm : LoadBalanceAlgorithm) (baseDomain : String)
    (deployment : Option Deployment) (containers : List (Option (List String))) : Prog lib Unit :=
  (removeAppRoutes app baseDomain).bind fun _ =>
    if (exposedServices app).isEmpty || (selectExposedService app).isNone then .pure ()
    else forAll (addServiceRoutes app algorithm baseDomain deployment containers)
      (exposedServices app)

def latestRunning (listed : Except String (List Deployment)) : Option Deployment :=
  match listed with
  | .ok deployments => deployments.find? fun deployment => deployment.status = .running
  | .error _ => none

def refreshRoutesForApp (lib : Libraries) (algorithm : LoadBalanceAlgorithm) (baseDomain : String)
    (appId : Uuid) : Prog lib Unit :=
  (ask (.loadApp appId)).bind fun loaded =>
    match loaded with
    | .error _ => .pure ()
    | .ok none => removeListed (taggedWith appId)
    | .ok (some app) =>
        (ask (.listDeployments app.id)).bind fun listed =>
          (ask (.listContainers ("containr-" ++ app.id.toString))).bind fun containers =>
            match containers with
            | .error _ => .pure ()
            | .ok containers =>
                rebuildRoutes app algorithm baseDomain (latestRunning listed) containers

end Containr.Proxy
