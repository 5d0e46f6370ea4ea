import Containr.Cron.Scheduler
import Containr.Identifiers

/-!
# Whose container is it

`ensure_container_owned` of `containr-api/src/handlers/containers.rs` and the container
part of `delete_app_runtime` of `containr-api/src/domain/services/mod.rs` decide from
names alone. An `Installation` holds the records and the containers that really exist,
each with the resource it was created for.
-/

namespace Containr.Api

open Containr.Effect Containr.Worker

/-- `Uuid::parse_str` of the `uuid` crate: the hyphenated, simple, urn and braced forms. -/
structure UuidParser where
  parseStr : String → Option Uuid
  display : ∀ id : Uuid, id.value < 2 ^ 128 → parseStr id.toString = some id
  forms : ∀ text id, parseStr text = some id → Text.toAsciiLowercase text ∈
    [id.toString, id.simple, "urn:uuid:" ++ id.toString, "\x7b" ++ id.toString ++ "\x7d"]

structure ManagedService where
  id : Uuid
  ownerId : Uuid
  groupId : Option Uuid
  containerId : Option String
deriving DecidableEq, Repr

inductive Resource where
  | app (id : Uuid)
  | database (id : Uuid)
  | queue (id : Uuid)
deriving DecidableEq, Repr

structure Container where
  name : String
  dockerId : String
  resource : Resource
deriving DecidableEq, Repr

def databaseContainerName (id : Uuid) : String := "containr-db-" ++ id.toString

def proxyContainerName (id : Uuid) : String := "containr-db-proxy-" ++ id.toString

def queueContainerName (id : Uuid) : String := "containr-queue-" ++ id.toString

def WorkerNamed (id : Uuid) (name : String) : Prop :=
  ∃ app service replica deploymentId, App.id app = id ∧
    name = containerName app service replica deploymentId

def CronNamed (id : Uuid) (name : String) : Prop :=
  ∃ app service now, App.id app = id ∧ name = Cron.cronContainerName app service now

def Produced : Resource → String → Prop
  | .app id, name => WorkerNamed id name ∨ CronNamed id name
  | .database id, name => name = databaseContainerName id ∨ name = proxyContainerName id
  | .queue id, name => name = queueContainerName id

def Container.AnswersTo (container : Container) (reference : String) : Prop :=
  container.name = reference ∨ container.dockerId = reference

structure Installation where
  apps : List App
  databases : List ManagedService
  queues : List ManagedService
  latestDeployment : Uuid → Option Deployment
  containers : List Container
  appIds : (apps.map App.id).Nodup
  databaseIds : (databases.map ManagedService.id).Nodup
  queueIds : (queues.map ManagedService.id).Nodup
  /-- A uuid has 128 bits. -/
  appBits : ∀ app ∈ apps, app.id.value < 2 ^ 128
  databaseBits : ∀ database ∈ databases, database.id.value < 2 ^ 128
  queueBits : ∀ queue ∈ queues, queue.id.value < 2 ^ 128
  produced : ∀ container ∈ containers, Produced container.resource container.name
  hexIds : ∀ container ∈ containers, ∀ ch ∈ container.dockerId.toList, isHexChar ch = true
  /-- Docker never has two containers for one name or id. -/
  unique : ∀ reference, ∀ first ∈ containers, ∀ second ∈ containers,
    first.AnswersTo reference → second.AnswersTo reference → first = second
  stored : ∀ container ∈ containers, match container.resource with
    | .app id => ∃ app ∈ apps, app.id = id
    | .database id => ∃ database ∈ databases, database.id = id
    | .queue id => ∃ queue ∈ queues, queue.id = id
  /-- A record keeps what docker returned for the record's own container. -/
  databaseRecords : ∀ database ∈ databases, ∀ reference ∈ database.containerId,
    ∀ container ∈ containers, container.AnswersTo reference →
      container.resource = .database database.id
  queueRecords : ∀ queue ∈ queues, ∀ reference ∈ queue.containerId,
    ∀ container ∈ containers, container.AnswersTo reference → container.resource = .queue queue.id
  deploymentRecords : ∀ app ∈ apps, ∀ deployment ∈ latestDeployment app.id,
    ∀ replica ∈ deployment.serviceDeployments, ∀ reference ∈ replica.containerId,
    ∀ container ∈ containers, container.AnswersTo reference → container.resource = .app app.id

namespace Installation

def getApp (installation : Installation) (id : Uuid) : Option App :=
  lookup App.id id installation.apps

def getManagedDatabase (installation : Installation) (id : Uuid) : Option ManagedService :=
  lookup ManagedService.id id installation.databases

def getManagedQueue (installation : Installation) (id : Uuid) : Option ManagedService :=
  lookup ManagedService.id id installation.queues

def listAppsByOwner (installation : Installation) (user : Uuid) : List App :=
  installation.apps.filter fun app => app.ownerId = user

def listManagedDatabasesByOwner (installation : Installation) (user : Uuid) :
    List ManagedService :=
  installation.databases.filter fun database => database.ownerId = user

def listManagedQueuesByOwner (installation : Installation) (user : Uuid) : List ManagedService :=
  installation.queues.filter fun queue => queue.ownerId = user

def Owns (installation : Installation) (user : Uuid) : Resource → Prop
  | .app id => ∃ app ∈ installation.apps, app.id = id ∧ app.ownerId = user
  | .database id => ∃ database ∈ installation.databases, database.id = id ∧ database.ownerId = user
  | .queue id => ∃ queue ∈ installation.queues, queue.id = id ∧ queue.ownerId = user

end Installation

/-- `none` is the panic of a slice off a character boundary. -/
def parseAppIdFromContainer (parser : UuidParser) (containerId : String) : Option (Option Uuid) :=
  match Text.stripFront containerId "containr-" with
  | none => some none
  | some suffix =>
      if Text.byteLength suffix < 36 then some none
      else (Text.sliceTo 36 suffix).map parser.parseStr

def shortAppId (appId : Uuid) : String := Cron.shortId appId.toString

def cronContainerPrefix (appId : Uuid) : String := "containr-cron-" ++ shortAppId appId ++ "-"

inductive Verdict where
  | owned | forbidden | panics
deriving DecidableEq, Repr

def recordedFor (installation : Installation) (user : Uuid) (containerId : String) : Bool :=
  (installation.listManagedDatabasesByOwner user).any (fun database =>
    database.containerId = some containerId) ||
  (installation.listManagedQueuesByOwner user).any (fun queue =>
    queue.containerId = some containerId) ||
  (installation.listAppsByOwner user).any fun app =>
    (installation.latestDeployment app.id).any fun deployment =>
      deployment.serviceDeployments.any fun replica => replica.containerId = some containerId

def ensureContainerOwned (parser : UuidParser) (installation : Installation) (user : Uuid)
    (containerId : String) : Verdict :=
  match Text.stripFront containerId "containr-db-" with
  | some idStr =>
      if ((parser.parseStr idStr).bind installation.getManagedDatabase).any fun database =>
          database.ownerId = user then .owned
      else .forbidden
  | none =>
      match Text.stripFront containerId "containr-queue-" with
      | some idStr =>
          if ((parser.parseStr idStr).bind installation.getManagedQueue).any fun queue =>
              queue.ownerId = user then .owned
          else .forbidden
      | none =>
          match parseAppIdFromContainer parser containerId with
          | none => .panics
          | some appId =>
              if (appId.bind installation.getApp).any fun app => app.ownerId = user then .owned
              else if (installation.listAppsByOwner user).any fun app =>
                  Text.startsWith containerId (cronContainerPrefix app.id) then .owned
              else if recordedFor installation user containerId then .owned
              else .forbidden

/-- What is stopped: the containers of the databases and queues in the app's group, and
those with the app's names. -/
def deleteAppRuntime (installation : Installation) (app : App) : List String :=
  let inGroup (service : ManagedService) : Bool := service.groupId = some app.id
  ((installation.listManagedDatabasesByOwner app.ownerId).filter inGroup).flatMap (fun database =>
    proxyContainerName database.id :: database.containerId.toList) ++
  ((installation.listManagedQueuesByOwner app.ownerId).filter inGroup).flatMap (fun queue =>
    queue.containerId.toList) ++
  (installation.containers.map Container.name).filter fun name =>
    Text.startsWith name ("containr-" ++ app.id.toString) ||
      Text.startsWith name (cronContainerPrefix app.id)

end Containr.Api
