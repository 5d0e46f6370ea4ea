import Containr.Api.Services
import Containr.Effect.Sum

/-!
# Managed databases and queues, and what deletes them

The records of `containr-common/src/managed_services.rs`, `stop_database` and `stop_queue`
of the runtime, and the deletions of `containr-api` that reach them: of one service, of a
group with its last service, of a user. An estate is the world with the tables of managed
services and users beside it.
-/

namespace Containr.Managed

open Containr.Effect Containr.Api Containr.Api.Services

inductive ManagedKind where
  | database | queue
deriving DecidableEq, Repr

def ManagedKind.directory : ManagedKind → String
  | .database => "databases"
  | .queue => "queues"

/-- What deletion reads of a `ManagedDatabase` or a `ManagedQueue`. A container is known by
the daemon's own id. -/
structure ManagedService where
  kind : ManagedKind
  id : Uuid
  ownerId : Uuid
  groupId : Option Uuid
  hostDataPath : String
  containerId : Option Nat
deriving DecidableEq, Repr

namespace ManagedService

/-- `new_with_path`; the group and the container are set later. -/
def newWithPath (kind : ManagedKind) (id ownerId : Uuid) (dataDir : String) : ManagedService where
  kind := kind
  id := id
  ownerId := ownerId
  groupId := none
  hostDataPath := Path.join (Path.join (Path.join dataDir kind.directory) id.toString) "data"
  containerId := none

/-- A `PathBuf` is used through its components only. -/
def rootPath (service : ManagedService) : List Path.Component :=
  (Path.parent (Path.components service.hostDataPath)).getD (Path.components service.hostDataPath)

def proxyContainerName (service : ManagedService) : String :=
  "containr-db-proxy-" ++ service.id.toString

def networkName (service : ManagedService) : String :=
  match service.groupId with
  | some groupId => "containr-" ++ groupId.toString
  | none => "containr-svc-" ++ service.id.toString

end ManagedService

/-- `removeIfExists` is `remove_container_if_exists`; the containers of `stopContainer` and
`removeContainer` are known by the daemon's own id. -/
inductive ManagedOp where
  | requireAdmin
  | userExists (id : Uuid)
  | serviceInventory (ownerId : Uuid)
  | deleteUser (id : Uuid)
  | list (kind : ManagedKind) (ownerId : Uuid)
  | find (kind : ManagedKind) (id : Uuid)
  | save (service : ManagedService)
  | delete (kind : ManagedKind) (id : Uuid)
  | removeIfExists (name : String)
  | stopContainer (serial : Nat)
  | removeContainer (serial : Nat)
  | networkExists (name : String)
  | removeDirAll (root : List Path.Component)
deriving DecidableEq, Repr

def ManagedOp.Answer : ManagedOp → Type
  | .requireAdmin => Except ApiError Uuid
  | .userExists _ => Except String Bool
  | .serviceInventory _ => Except String (List Uuid)
  | .deleteUser _ | .delete _ _ => Except String Bool
  | .list _ _ => Except String (List ManagedService)
  | .find _ _ => Except String (Option ManagedService)
  | .save _ | .removeIfExists _ | .stopContainer _ | .removeContainer _ => Except String Unit
  | .networkExists _ => Bool
  | .removeDirAll _ => Except FileError Unit

abbrev EstateEffects : Interface := Effects.sum ⟨ManagedOp, ManagedOp.Answer⟩

abbrev Prog (Value : Type) : Type := Program EstateEffects Value

def ManagedOp.call (op : ManagedOp) : Prog op.Answer := @Program.perform EstateEffects (.inr op)

abbrev FallibleProg (Value : Type) : Type := ExceptT String (Program EstateEffects) Value

abbrev HandlerProg (Value : Type) : Type := ExceptT ApiError (Program EstateEffects) Value

/-- A part that does not touch managed services. -/
def onWorld {Error Value : Type} (program : ExceptT Error (Program Effects) Value) :
    ExceptT Error (Program EstateEffects) Value := ExceptT.mk program.run.inl

def orInternal {Value : Type} (program : FallibleProg Value) : HandlerProg Value :=
  ExceptT.mk (program.run.bind fun result => .pure (match result with
    | .ok value => .ok value
    | .error _ => .error internalError))

def ignore {Error Value : Type} (program : ExceptT Error (Program EstateEffects) Value) :
    Prog Unit :=
  program.run.bind fun _ => .pure ()

def listRecords (kind : ManagedKind) (ownerId : Uuid) : FallibleProg (List ManagedService) :=
  ExceptT.mk (ManagedOp.list kind ownerId).call

def getRecord (kind : ManagedKind) (id : Uuid) : FallibleProg (Option ManagedService) :=
  ExceptT.mk (ManagedOp.find kind id).call

def saveRecord (service : ManagedService) : FallibleProg Unit :=
  ExceptT.mk (ManagedOp.save service).call

def deleteRecord (kind : ManagedKind) (id : Uuid) : FallibleProg Bool :=
  ExceptT.mk (ManagedOp.delete kind id).call

def removeContainerIfExists (name : String) : FallibleProg Unit :=
  ExceptT.mk (ManagedOp.removeIfExists name).call

def userExists (id : Uuid) : FallibleProg Bool := ExceptT.mk (ManagedOp.userExists id).call

def listServiceInventoryByOwner (ownerId : Uuid) : FallibleProg (List Uuid) :=
  ExceptT.mk (ManagedOp.serviceInventory ownerId).call

def deleteUserRow (id : Uuid) : FallibleProg Bool := ExceptT.mk (ManagedOp.deleteUser id).call

def removeNetworkIfExists (name : String) : FallibleProg Unit := do
  let present : Bool ← liftM (ManagedOp.networkExists name).call
  if present then
    onWorld (ExceptT.mk (external (.removeNetwork name)))

def stopProxyFrontend (service : ManagedService) : FallibleProg Unit :=
  match service.kind with
  | .database => removeContainerIfExists service.proxyContainerName
  | .queue => pure ()

def stopOwnContainer (service : ManagedService) : Prog Unit :=
  match service.containerId with
  | none => .pure ()
  | some serial =>
      (ManagedOp.stopContainer serial).call.bind fun _ =>
        (ManagedOp.removeContainer serial).call.bind fun _ => .pure ()

/-- `stop_database` and `stop_queue`. -/
def stopManaged (service : ManagedService) : FallibleProg Unit := do
  stopProxyFrontend service
  liftM (stopOwnContainer service)
  if service.groupId.isNone then
    removeNetworkIfExists service.networkName

def removeData (dataDir : String) (service : ManagedService) : Prog Unit :=
  if (Path.components dataDir).isPrefixOf service.rootPath then
    (ManagedOp.removeDirAll service.rootPath).call.bind fun _ => .pure ()
  else .pure ()

def deleteUnder (dataDir : String) (service : ManagedService) : HandlerProg Unit := do
  liftM (ignore (stopManaged service))
  liftM (removeData dataDir service)
  let _ ← orInternal (deleteRecord service.kind service.id)

/-- The branches of `delete_service` for a managed service. -/
def deleteManaged (storageDir : String) (service : ManagedService) : HandlerProg Unit :=
  deleteUnder storageDir service

def groupedServices (app : App) (kind : ManagedKind) : HandlerProg (List ManagedService) := do
  let listed ← orInternal (listRecords kind app.ownerId)
  return listed.filter fun service => service.groupId = some app.id

def deleteGrouped (server : Server) (app : App) (kind : ManagedKind) : HandlerProg Unit := do
  let grouped ← groupedServices app kind
  ExceptT.mk (Program.forEach (fun service => (deleteUnder server.dataDir service).run) grouped)

/-- `delete_app_runtime`: the managed services of the group, then its containers, network and
volumes. -/
def deleteGroupRuntime (server : Server) (app : App) : HandlerProg Unit := do
  deleteGrouped server app .database
  deleteGrouped server app .queue
  onWorld (deleteAppRuntime server app)

def detachGrouped (app : App) (kind : ManagedKind) : HandlerProg Unit := do
  let grouped ← groupedServices app kind
  ExceptT.mk (Program.forEach (fun service =>
    (orInternal (saveRecord { service with groupId := none })).run) grouped)

/-- `delete_app_service`; the group goes with its last service. -/
def deleteGroupService (server : Server) (app : App) (service : ContainerService) :
    HandlerProg Unit := do
  if app.services.length = 1 then
    liftM (ignore (onWorld (stopAppService server app service)))
    deleteGroupRuntime server app
    let _ ← orInternal (onWorld (deleteApp app.id))
    detachGrouped app .database
    detachGrouped app .queue
    onWorld (liftM (refreshProxyRoutes server app.id))
  else
    onWorld (deleteAppService server app service)

inductive OwnedServiceRecord where
  | app (app : App) (service : ContainerService)
  | managed (service : ManagedService)

def ownedManaged (userId : Uuid) (service : ManagedService) : HandlerProg OwnedServiceRecord :=
  if service.ownerId = userId then pure (.managed service) else throw (forbidden "access denied")

def resolveOwnedServiceRecord (userId serviceId : Uuid) : HandlerProg OwnedServiceRecord := do
  match ← onWorld (Containr.orInternal (Store.getService serviceId)) with
  | some service => do
      let some app ← onWorld (Containr.orInternal (Store.getApp service.appId))
        | throw (notFound "service group not found")
      if app.ownerId = userId then
        return .app app ((lookup (·.id) serviceId app.services).getD service)
      else throw (forbidden "access denied")
  | none => do
      match ← orInternal (getRecord .database serviceId) with
      | some database => ownedManaged userId database
      | none => do
          match ← orInternal (getRecord .queue serviceId) with
          | some queue => ownedManaged userId queue
          | none => throw (notFound "service not found")

def deleteService (server : Server) (storageDir : String) (userId serviceId : Uuid) :
    HandlerProg Unit := do
  match ← resolveOwnedServiceRecord userId serviceId with
  | .app app service => deleteGroupService server app service
  | .managed service => deleteManaged storageDir service

/-- `delete_user` of `containr-api/src/handlers/auth.rs`. A service that could not be deleted
is logged. -/
def deleteUser (server : Server) (storageDir : String) (id : Uuid) : HandlerProg Unit := do
  let admin ← ExceptT.mk ManagedOp.requireAdmin.call
  if admin = id then throw (badRequest "you cannot delete your own account")
  let found ← orInternal (userExists id)
  if !found then throw (notFound "user not found")
  let inventory ← orInternal (listServiceInventoryByOwner id)
  liftM (Program.forAll (fun serviceId => ignore (deleteService server storageDir id serviceId))
    inventory)
  let _ ← orInternal (deleteUserRow id)

structure Estate where
  world : World
  managed : List ManagedService
  users : List Uuid
deriving DecidableEq, Repr

/-- What the environment decides: a fault, or the answer itself. -/
def ManagedOp.Choice : ManagedOp → Type
  | .requireAdmin => Except ApiError Uuid
  | .networkExists _ => Bool
  | .removeDirAll _ => Except FileError Unit
  | _ => Option String

namespace Estate

def inventory (estate : Estate) (ownerId : Uuid) : List Uuid :=
  ((estate.world.db.apps.filter (·.ownerId = ownerId)).flatMap fun app =>
    (estate.world.db.servicesByApp app.id).map (·.id)) ++
      (estate.managed.filter (·.ownerId = ownerId)).map (·.id)

/-- `DELETE FROM users`, with its cascades. -/
def deleteUser (estate : Estate) (id : Uuid) : Estate :=
  let apps := (estate.world.db.apps.filter (·.ownerId = id)).map (·.id)
  let db := apps.foldl Database.deleteAppRow estate.world.db
  { world := { estate.world with
      db := { db with registries := db.registries.filter (·.ownerId ≠ id) } }
    managed := estate.managed.filter (·.ownerId ≠ id)
    users := estate.users.filter (· ≠ id) }

def isRecord (kind : ManagedKind) (id : Uuid) (service : ManagedService) : Bool :=
  service.kind = kind && service.id = id

def keepContainers (estate : Estate) (keep : Container → Bool) : Estate :=
  { estate with world := { estate.world with containers := estate.world.containers.filter keep } }

def removeContainer (estate : Estate) (serial : Nat) : Except String Unit × Estate :=
  if estate.world.containers.any (·.serial = serial) then
    (.ok (), estate.keepContainers (·.serial ≠ serial))
  else (.error "no such container", estate)

/-- A row with the key is replaced, else the row is added. -/
def save (estate : Estate) (service : ManagedService) : Estate :=
  { estate with managed :=
      if estate.managed.any (isRecord service.kind service.id) then
        estate.managed.map fun other =>
          if isRecord service.kind service.id other then service else other
      else estate.managed ++ [service] }

end Estate

/-- The answer of a statement or a request of the daemon that may fail. -/
def attempt {Reply : Type} (fault : Option String) (estate : Estate)
    (served : Except String Reply × Estate) : Except String Reply × Estate :=
  match fault with
  | some message => (.error message, estate)
  | none => served

def ManagedOp.exec : (op : ManagedOp) → op.Choice → Estate → op.Answer × Estate
  | .requireAdmin, reply, estate => (reply, estate)
  | .userExists id, fault, estate => attempt fault estate (.ok (estate.users.contains id), estate)
  | .serviceInventory ownerId, fault, estate =>
      attempt fault estate (.ok (estate.inventory ownerId), estate)
  | .deleteUser id, fault, estate =>
      attempt fault estate (.ok (estate.users.contains id), estate.deleteUser id)
  | .list kind ownerId, fault, estate =>
      let listed := estate.managed.filter fun service =>
        service.kind = kind && service.ownerId = ownerId
      attempt fault estate (.ok listed, estate)
  | .find kind id, fault, estate =>
      attempt fault estate (.ok (estate.managed.find? (Estate.isRecord kind id)), estate)
  | .save service, fault, estate => attempt fault estate (.ok (), estate.save service)
  | .delete kind id, fault, estate =>
      let kept := estate.managed.filter fun service => !Estate.isRecord kind id service
      attempt fault estate (.ok (estate.managed.any (Estate.isRecord kind id)),
        { estate with managed := kept })
  | .removeIfExists name, fault, estate =>
      attempt fault estate (.ok (), estate.keepContainers (·.name ≠ name))
  | .stopContainer serial, fault, estate =>
      let served := estate.world.switchContainer (·.serial = serial) false
      attempt fault estate (served.1, { estate with world := served.2 })
  | .removeContainer serial, fault, estate =>
      attempt fault estate (estate.removeContainer serial)
  | .networkExists _, reply, estate => (reply, estate)
  | .removeDirAll _, reply, estate => (reply, estate)

def estateSystem : Machine EstateEffects Estate where
  Choice := Sum.elim Op.Choice ManagedOp.Choice
  exec
    | .inl op, choice, estate =>
        let result := op.exec choice estate.world
        (result.1, { estate with world := result.2 })
    | .inr op, choice, estate => op.exec choice estate
  Admits
    | .inl op, choice, estate => op.Admits choice estate.world
    | .inr _, _, _ => True

section Rules

variable {allowed : EstateEffects.Op → Prop} {Error Value State : Type}
  {can : Behaviour EstateEffects State} {ok : State → EstateEffects.Op → Prop} {state : State}

theorem managed_calls {op : ManagedOp} (permitted : allowed (.inr op)) : op.call.Calls allowed :=
  @Program.calls_perform EstateEffects allowed (.inr op) permitted

theorem or_internal_calls {program : FallibleProg Value} (calls : program.run.Calls allowed) :
    (orInternal program).run.Calls allowed :=
  calls.bind fun _ => Program.calls_pure _

variable {program : ExceptT Error (Program EstateEffects) Value}

theorem ignore_calls (calls : program.run.Calls allowed) : (ignore program).Calls allowed :=
  calls.bind fun _ => Program.calls_pure _

theorem on_world_calls {within : Op → Prop} {program : ExceptT Error (Program Effects) Value}
    (calls : program.run.Calls within) (included : ∀ op, within op → allowed (.inl op)) :
    (onWorld program).run.Calls allowed := calls.inl included

theorem managed_always {op : ManagedOp} {post : op.Answer → State → Prop} :
    @Program.Always EstateEffects op.Answer State can ok op.call post state ↔
      ok state (.inr op) ∧ ∀ answer after, can (.inr op) state answer after → post answer after := by
  unfold ManagedOp.call
  exact Program.always_perform

theorem ignore_always {post : Unit → State → Prop} : (ignore program).Always can ok post state ↔
      program.run.Always can ok (fun _ after => post () after) state := by
  unfold ignore
  exact Program.always_dropped program.run post state

theorem or_internal_always {program : FallibleProg Value}
    {post : Except ApiError Value → State → Prop} :
    (orInternal program).run.Always can ok post state ↔
      program.run.Always can ok (fun result after =>
        match result with
        | .ok value => post (.ok value) after
        | .error _ => post (.error internalError) after) state := by
  unfold orInternal
  rw [Program.always_run_map]
  apply Program.always_congr
  intro result after
  cases result with
  | ok value => exact Iff.rfl
  | error message => exact Iff.rfl

end Rules

end Containr.Managed
