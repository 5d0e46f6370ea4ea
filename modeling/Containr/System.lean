import Containr.Database
import Containr.Effect.Pool

/-!
# The world the server acts on

One call is one step other tasks can interleave with: a statement or
transaction of the store, a request to the docker daemon, a file system or
network action, a draw of an id or of the clock. The store, the containers, the
job queue and the two deployment flags are state; files, images and registries
are not, so their answers are choices of the environment. Docker is modelled as
the daemon documents it: a name can be used once, a failed create leaves
nothing, a created container stays until it is removed. The stub mode of
`DockerContainerManager` is left out.
-/

namespace Containr

open Containr.Effect

structure RegistryCredentials where
  server : Option String
  username : String
  password : String
deriving DecidableEq, Repr

structure ImageBuildConfig where
  contextPath : String
  dockerfile : Option String
  target : Option String
  buildArgs : List (String × String)
deriving DecidableEq, Repr

structure DockerBindMount where
  source : String
  target : String
  readOnly : Bool
  seedFromImage : Bool
deriving DecidableEq, Repr

structure DockerPortMapping where
  hostPort : Nat
  containerPort : Nat
  protocol : String
deriving DecidableEq, Repr

structure DockerNetworkAttachment where
  name : String
  aliases : List String
deriving DecidableEq, Repr

structure HealthCheckCommand where
  cmd : List String
  intervalSecs : Nat
  timeoutSecs : Nat
  retries : Nat
deriving DecidableEq, Repr

/-- The environment is a map; its entries are listed in insertion order. -/
structure DockerContainerConfig where
  id : String
  image : String
  envVars : List (String × String)
  port : Nat
  additionalPorts : List Nat
  portMappings : List DockerPortMapping
  command : Option (List String)
  entrypoint : Option (List String)
  workingDir : Option String
  memoryLimit : Option Nat
  cpuLimit : Option Float64
  network : Option DockerNetworkAttachment
  mounts : List DockerBindMount
  additionalNetworks : List DockerNetworkAttachment
  healthCheck : Option HealthCheckCommand
  restartPolicy : String
deriving DecidableEq, Repr

/-- What a container was created from: a service's configuration, one run of a cron
service, or the helper that exposes an image's files to `try_seed_bind_mount`. -/
inductive ContainerBody where
  | service (config : DockerContainerConfig)
  | cron (appId serviceId : Uuid) (config : DockerContainerConfig)
  | seed (image : String)
deriving DecidableEq, Repr

/-- `serial` is the daemon's own id, never used twice. -/
structure Container where
  serial : Nat
  name : String
  body : ContainerBody
  running : Bool
deriving DecidableEq, Repr

inductive Query where
  | app (id : Uuid)
  | apps
  | service (id : Uuid)
  | servicesByApp (appId : Uuid)
  | deployment (id : Uuid)
  | deploymentsByApp (appId : Uuid)
  | serviceDeployments (deploymentId : Uuid)
  | registriesByOwner (ownerId : Uuid)
deriving DecidableEq, Repr

def Query.Row : Query → Type
  | .app _ => Option App
  | .apps => List App
  | .service _ => Option ContainerService
  | .servicesByApp _ => List ContainerService
  | .deployment _ => Option Deployment
  | .deploymentsByApp _ => List Deployment
  | .serviceDeployments _ => List ServiceDeployment
  | .registriesByOwner _ => List ContainerRegistry

def Query.read (db : Database) : (query : Query) → query.Row
  | .app id => db.appRow id
  | .apps => db.appRows
  | .service id => db.serviceRow id
  | .servicesByApp appId => db.servicesByApp appId
  | .deployment id => db.deploymentRow id
  | .deploymentsByApp appId => db.deploymentRowsByApp appId
  | .serviceDeployments deploymentId => db.serviceDeploymentsOf deploymentId
  | .registriesByOwner ownerId => db.registriesByOwner ownerId

inductive Write where
  | saveApp (app : App)
  | deleteApp (id : Uuid)
  | saveDeployment (deployment : Deployment)
  | deleteDeployment (id : Uuid)
  | saveServiceDeployment (row : ServiceDeployment)
  | appendDeploymentLog (id : Uuid) (line : String)
deriving DecidableEq, Repr

def Write.apply (db : Database) : Write → Option Database
  | .saveApp app => db.saveApp app
  | .deleteApp id => some (db.deleteAppRow id)
  | .saveDeployment deployment => db.saveDeployment deployment
  | .deleteDeployment id => some (db.deleteDeployment id)
  | .saveServiceDeployment row => db.saveServiceDeployment row
  | .appendDeploymentLog id line => db.appendDeploymentLog id line

inductive DockerCall where
  | createContainer (name : String) (body : ContainerBody)
  | startContainer (serial : Nat)
  | stopContainer (name : String)
  | removeContainer (name : String)
  | inspectContainer (name : String)
  | listContainers
deriving DecidableEq, Repr

def DockerCall.Reply : DockerCall → Type
  | .createContainer _ _ => Nat
  | .startContainer _ | .stopContainer _ | .removeContainer _ => Unit
  | .inspectContainer _ => Container
  | .listContainers => List Container

inductive FileError where
  | notFound
  | other (message : String)
deriving DecidableEq, Repr

/-- Actions on files, images, registries, networks, the proxy, name servers and the
ciphers, and reads of the tables of users and managed services. -/
inductive External where
  | pathExists (path : String)
  | isDir (path : String)
  | isFile (path : String)
  | canonicalize (path : String)
  | absolute (path : String)
  | dirIsEmpty (path : String)
  | createDirAll (path : String)
  | removeDirAll (path : String)
  | writeFile (path content : String)
  | setPermissions (path : String) (mode : Nat)
  | removeFile (path : String)
  | unpackSeedArchive (archive destination : String)
  | downloadPath (container path destination : String)
  | git (token directory : Option String) (arguments : List String)
  | pullImage (image : String) (credentials : Option RegistryCredentials)
  | buildImage (image : String) (config : ImageBuildConfig)
  | connectNetwork (network : DockerNetworkAttachment) (container : Nat)
  | createNetwork (name : String)
  | removeNetwork (name : String)
  | waitForHealthy (container : String) (timeoutSecs : Nat)
  | sendProxyRefresh (appId : Uuid)
  | remoteGitToken (ownerId : Uuid) (repoUrl : String)
  | containerState (container : String)
  | hashPassword (password : String)
  | encryptValue (value : String)
  | lookupIp (domain : String)
  | lookupCname (domain : String)
  | userIsAdmin (userId : Uuid)
  | managedDatabaseOwner (serviceId : Uuid)
  | managedQueueOwner (serviceId : Uuid)
  | serviceManager
  | isEmptyDir (path : String)
  | moveDir (source target : String)
  | copyDir (source target : String)
  | rename (source target : String)
  | requestCertificate (domain : String)
deriving DecidableEq, Repr

/-- The response of a failed request. -/
structure ApiError where
  status : Nat
  error : String
deriving DecidableEq, Repr

/-- A build answers with the lines it logged and its outcome; the state of a container
is its status and the time it finished at, as docker writes them. A failed address lookup
answers with no address. -/
def External.Reply : External → Type
  | .pathExists _ | .isDir _ | .isFile _ => Bool
  | .canonicalize _ | .absolute _ | .git _ _ _ | .hashPassword _ | .encryptValue _ =>
      Except String String
  | .dirIsEmpty _ | .unpackSeedArchive _ _ | .downloadPath _ _ _
  | .waitForHealthy _ _ | .isEmptyDir _ | .userIsAdmin _ => Except String Bool
  | .removeDirAll _ => Except FileError Unit
  | .createDirAll _ | .writeFile _ _ | .setPermissions _ _ | .removeFile _
  | .pullImage _ _ | .connectNetwork _ _ | .createNetwork _ | .removeNetwork _
  | .serviceManager | .moveDir _ _ | .copyDir _ _ | .rename _ _ =>
      Except String Unit
  | .buildImage _ _ => List String × Except String Unit
  | .sendProxyRefresh _ | .requestCertificate _ => Unit
  | .lookupIp _ => List String
  | .lookupCname _ => Except String (List String)
  | .managedDatabaseOwner _ | .managedQueueOwner _ => Except String (Option Uuid)
  | .remoteGitToken _ _ => Except ApiError (Option String)
  | .containerState _ => Except String (String × Option String)

/-- The statics `DEPLOYMENTS_PAUSED` and `DEPLOYMENT_RUNNING`. -/
inductive Flag where
  | paused | running
deriving DecidableEq, Repr

inductive Op where
  | query (wanted : Query)
  | write (change : Write)
  | docker (request : DockerCall)
  | external (action : External)
  | newUuid
  | utcNow
  | iterationOrder (keys : List String)
  | hashOrder (count : Nat)
  | sendJob (job : DeploymentJob)
  | receiveJob
  | loadFlag (flag : Flag)
  | storeFlag (flag : Flag) (value : Bool)
deriving DecidableEq, Repr

/-- A hash set is iterated in an order of its own choosing; `hashOrder` draws the
positions of the entries of a hash map. -/
def Op.Answer : Op → Type
  | .query wanted => Except String wanted.Row
  | .write _ => Except String Unit
  | .docker request => Except String request.Reply
  | .external action => action.Reply
  | .newUuid => Uuid
  | .utcNow => Time
  | .iterationOrder keys => { order : List String // order.Perm keys }
  | .hashOrder count => { order : List Nat // order.Perm (List.range count) }
  | .sendJob _ => Except String Unit
  | .receiveJob => Option DeploymentJob
  | .loadFlag _ => Bool
  | .storeFlag _ _ => Unit

abbrev Effects : Interface := ⟨Op, Op.Answer⟩

/-- A task of the server. -/
abbrev Sys (Value : Type) : Type := Program Effects Value

def Op.call (op : Op) : Sys op.Answer := @Program.perform Effects op

/-- A function returning `anyhow::Result`; `do` chains it as `?` does. -/
abbrev Fallible (Value : Type) : Type := ExceptT String (Program Effects) Value

abbrev Handler (Value : Type) : Type := ExceptT ApiError (Program Effects) Value

structure World where
  db : Database
  containers : List Container
  nextSerial : Nat
  queue : List DeploymentJob
  issued : List Uuid
  paused : Bool
  running : Bool
deriving DecidableEq, Repr

def setRunning (selected : Container → Bool) (value : Bool) (containers : List Container) :
    List Container :=
  containers.map fun container =>
    if selected container then { container with running := value } else container

namespace World

def empty : World := ⟨Database.empty, [], 0, [], [], false, false⟩

def hasContainer (world : World) (name : String) : Bool := world.containers.any (·.name = name)

def createContainer (world : World) (name : String) (body : ContainerBody) :
    Except String Nat × World :=
  if world.hasContainer name then
    (.error ("container name \"" ++ name ++ "\" is already in use"), world)
  else
    (.ok world.nextSerial, { world with
      containers := world.containers ++ [⟨world.nextSerial, name, body, false⟩]
      nextSerial := world.nextSerial + 1 })

def switchContainer (world : World) (selected : Container → Bool) (value : Bool) :
    Except String Unit × World :=
  if world.containers.any selected then
    (.ok (), { world with containers := setRunning selected value world.containers })
  else (.error "no such container", world)

def removeContainer (world : World) (name : String) : Except String Unit × World :=
  if world.hasContainer name then
    (.ok (), { world with containers := world.containers.filter (·.name ≠ name) })
  else (.error "no such container", world)

def inspectContainer (world : World) (name : String) : Except String Container :=
  match world.containers.find? (·.name = name) with
  | some container => .ok container
  | none => .error "no such container"

def flag (world : World) : Flag → Bool
  | .paused => world.paused
  | .running => world.running

def setFlag (world : World) : Flag → Bool → World
  | .paused, value => { world with paused := value }
  | .running, value => { world with running := value }

end World

/-- The daemon's reply when it is not out of order. -/
def DockerCall.serve (world : World) :
    (request : DockerCall) → Except String request.Reply × World
  | .createContainer name body => world.createContainer name body
  | .startContainer serial => world.switchContainer (·.serial = serial) true
  | .stopContainer name => world.switchContainer (·.name = name) false
  | .removeContainer name => world.removeContainer name
  | .inspectContainer name => (world.inspectContainer name, world)
  | .listContainers => (.ok world.containers, world)

/-- What the environment decides at a call: a fault, an answer, a draw. -/
def Op.Choice : Op → Type
  | .query _ | .write _ | .docker _ | .sendJob _ => Option String
  | .external action => action.Reply
  | .newUuid => Uuid
  | .utcNow => Time
  | .iterationOrder keys => { order : List String // order.Perm keys }
  | .hashOrder count => { order : List Nat // order.Perm (List.range count) }
  | .receiveJob | .loadFlag _ | .storeFlag _ _ => Unit

/-- An empty queue answers `None`, as a closed channel does: a worker that waits
is a worker that takes no step. -/
def Op.exec : (op : Op) → op.Choice → World → op.Answer × World
  | .query wanted, fault, world =>
      match fault with
      | some message => (.error message, world)
      | none => (.ok (wanted.read world.db), world)
  | .write change, fault, world =>
      match fault with
      | some message => (.error message, world)
      | none =>
          match change.apply world.db with
          | some db => (.ok (), { world with db := db })
          | none => (.error "constraint failed", world)
  | .docker request, fault, world =>
      match fault with
      | some message => (.error message, world)
      | none => request.serve world
  | .external _, reply, world => (reply, world)
  | .newUuid, id, world => (id, { world with issued := id :: world.issued })
  | .utcNow, now, world => (now, world)
  | .iterationOrder _, order, world => (order, world)
  | .hashOrder _, order, world => (order, world)
  | .sendJob job, fault, world =>
      match fault with
      | some message => (.error message, world)
      | none => (.ok (), { world with queue := world.queue ++ [job] })
  | .receiveJob, _, world =>
      match world.queue with
      | [] => (none, world)
      | job :: queue => (some job, { world with queue := queue })
  | .loadFlag flag, _, world => (world.flag flag, world)
  | .storeFlag flag value, _, world => ((), world.setFlag flag value)

def Op.Admits : (op : Op) → op.Choice → World → Prop
  | .newUuid, id, world => id ∉ world.issued
  | _, _, _ => True

instance World.decidableNew (world : World) (id : Uuid) : Decidable (id ∉ world.issued) :=
  inferInstance

instance Op.decidableAdmits :
    (op : Op) → (choice : op.Choice) → (world : World) → Decidable (op.Admits choice world)
  | .newUuid, id, world => world.decidableNew id
  | .query _, _, _ | .write _, _, _ | .docker _, _, _ | .external _, _, _ | .utcNow, _, _
  | .iterationOrder _, _, _ | .hashOrder _, _, _ | .sendJob _, _, _ | .receiveJob, _, _
  | .loadFlag _, _, _ | .storeFlag _ _, _, _ => .isTrue trivial

def system : Machine Effects World := ⟨Op.Choice, Op.exec, Op.Admits⟩

/-- An environment that makes only some of the choices. -/
def systemWhere (check : (op : Op) → op.Choice → World → Bool) : Machine Effects World :=
  system.only fun op choice world => check op choice world = true

instance (check : (op : Op) → op.Choice → World → Bool) (op : Effects.Op)
    (choice : (systemWhere check).Choice op) (world : World) :
    Decidable ((systemWhere check).Admits op choice world) :=
  @instDecidableAnd _ _ (Op.decidableAdmits op choice world) inferInstance

/-- The choices of an environment in which containers can be removed. Everything else
may fail: a call that returns `Ok` made no use of it. -/
def removals : (op : Op) → op.Choice → World → Bool
  | .docker (.removeContainer _), fault, _ => Option.isNone fault
  | _, _, _ => true

abbrev removing : Machine Effects World := systemWhere removals

/-- The behaviour of every call, faults included. -/
def Possible : Behaviour Effects World := system.can

/-- Everything is found, built and healthy; nothing needs seeding. -/
def External.calmReply : (action : External) → action.Reply
  | .pathExists _ | .isDir _ | .isFile _ => true
  | .canonicalize text | .absolute text | .hashPassword text | .encryptValue text => .ok text
  | .dirIsEmpty _ | .userIsAdmin _ => .ok false
  | .isEmptyDir _ => .ok true
  | .unpackSeedArchive _ _ | .downloadPath _ _ _ | .waitForHealthy _ _ => .ok true
  | .git _ _ _ => .ok ""
  | .removeDirAll _ => .ok ()
  | .createDirAll _ | .writeFile _ _ | .setPermissions _ _ | .removeFile _
  | .pullImage _ _ | .connectNetwork _ _ | .createNetwork _ | .removeNetwork _
  | .serviceManager | .moveDir _ _ | .copyDir _ _ | .rename _ _ => .ok ()
  | .buildImage _ _ => ([], .ok ())
  | .sendProxyRefresh _ | .requestCertificate _ => ()
  | .lookupIp _ => []
  | .lookupCname _ => .ok []
  | .managedDatabaseOwner _ | .managedQueueOwner _ => .ok none
  | .remoteGitToken _ _ => .ok none
  | .containerState _ => .ok ("running", none)

/-- A number above every issued id. -/
def World.freshUuid (world : World) : Uuid :=
  ⟨(world.issued.map Uuid.value).foldr max 0 + 1⟩

def calm : system.Policy
  | .query _, _ | .write _, _ | .docker _, _ | .sendJob _, _ => none
  | .external action, _ => action.calmReply
  | .newUuid, world => world.freshUuid
  | .utcNow, _ => (0 : Nat)
  | .iterationOrder keys, _ => ⟨keys, List.Perm.refl keys⟩
  | .hashOrder count, _ => ⟨List.range count, List.Perm.refl _⟩
  | .receiveJob, _ | .loadFlag _, _ | .storeFlag _ _, _ => ()

theorem World.fresh_uuid_new (world : World) : world.freshUuid ∉ world.issued := by
  intro issued
  have bound : ∀ ids : List Uuid, ∀ id ∈ ids, id.value ≤ (ids.map Uuid.value).foldr max 0 := by
    intro ids
    induction ids with
    | nil => simp
    | cons first rest ih =>
        intro id member
        rcases List.mem_cons.mp member with rfl | later
        · exact le_max_left _ _
        · exact (ih id later).trans (le_max_right _ _)
  have small := bound world.issued world.freshUuid issued
  unfold World.freshUuid at small
  dsimp only at small
  omega

theorem calm_admitted (op : Op) (world : World) : system.Admits op (calm op world) world := by
  cases op with
  | newUuid => exact world.fresh_uuid_new
  | _ => trivial

section Turns

variable {Thread : Type}

/-- A schedule without faults: so many calls of each thread in a row. -/
def turns (rounds : List (Thread × Nat)) : List (Thread × system.Policy) :=
  rounds.flatMap fun round => List.replicate round.2 (round.1, calm)

theorem turns_admitted {rounds : List (Thread × Nat)} :
    ∀ entry ∈ turns rounds, ∀ op state, system.Admits op (entry.2 op state) state := by
  intro entry member op state
  obtain ⟨round, -, repeated⟩ := List.mem_flatMap.mp member
  rw [List.eq_of_mem_replicate repeated]
  exact calm_admitted op state

theorem turns_thread {thread : Thread} {count : Nat} {entry : Thread × system.Policy}
    (member : entry ∈ turns [(thread, count)]) : entry.1 = thread := by
  obtain ⟨round, only, repeated⟩ := List.mem_flatMap.mp member
  rw [List.mem_singleton] at only
  rw [List.eq_of_mem_replicate repeated, only]

end Turns

end Containr
