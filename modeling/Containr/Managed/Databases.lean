import Containr.Api.ServiceFields
import Containr.Effect.Amid
import Containr.Store

/-!
# Managed databases

`start_database` and `stop_database` of `containr-runtime/src/database_manager.rs` and the
requests of `containr-api` that create a managed database, start, stop and restart it, and
delete it. Each statement of the store and each request of the daemon is one step others
can come between. What is put into a container (labels, mounts, environment, commands,
health check, aliases) is read by nothing here. `resolve_owned_service_record` is asked
for ids that no service of an app and no queue has.
-/

namespace Containr.Managed.Databases

open Containr.Effect Containr.Api

inductive DatabaseType where
  | postgresql | mariadb | valkey | qdrant
deriving DecidableEq, Repr

namespace DatabaseType

def dockerImage (kind : DatabaseType) (version : String) : String :=
  match kind with
  | .postgresql => "postgres:" ++ version
  | .mariadb => "mariadb:" ++ version
  | .valkey => "valkey/valkey:" ++ version
  | .qdrant => "qdrant/qdrant:" ++ version

def defaultVersion : DatabaseType → String
  | .postgresql => "16"
  | .mariadb => "11"
  | .valkey => "8"
  | .qdrant => "latest"

def defaultMemoryLimit : DatabaseType → Nat
  | .postgresql | .mariadb => 512 * 1024 * 1024
  | .valkey => 256 * 1024 * 1024
  | .qdrant => 1024 * 1024 * 1024

end DatabaseType

inductive ServiceStatus where
  | pending | starting | running | stopped | failed
deriving DecidableEq, Repr

structure ManagedDatabase where
  id : Uuid
  ownerId : Uuid
  groupId : Option Uuid
  name : String
  dbType : DatabaseType
  version : String
  containerId : Option Nat
  hostDataPath : String
  pitrEnabled : Bool
  proxyEnabled : Bool
  memoryLimit : Nat
  status : ServiceStatus
deriving DecidableEq, Repr

def databaseContainerName (id : Uuid) : String := "containr-db-" ++ id.toString

def proxyContainerName (id : Uuid) : String := "containr-db-proxy-" ++ id.toString

namespace ManagedDatabase

/-- `new_with_path`. -/
def newWithPath (id ownerId : Uuid) (name : String) (dbType : DatabaseType) (dataDir : String) :
    ManagedDatabase where
  id := id
  ownerId := ownerId
  groupId := none
  name := name
  dbType := dbType
  version := dbType.defaultVersion
  containerId := none
  hostDataPath := Path.join (Path.join (Path.join dataDir "databases") id.toString) "data"
  pitrEnabled := false
  proxyEnabled := false
  memoryLimit := dbType.defaultMemoryLimit
  status := .pending

def dockerImage (db : ManagedDatabase) : String := db.dbType.dockerImage db.version

def networkName (db : ManagedDatabase) : String :=
  match db.groupId with
  | some groupId => "containr-" ++ groupId.toString
  | none => "containr-svc-" ++ db.id.toString

/-- A `PathBuf` is used through its components only. -/
def rootPath (db : ManagedDatabase) : List Path.Component :=
  (Path.parent (Path.components db.hostDataPath)).getD (Path.components db.hostDataPath)

def under (db : ManagedDatabase) (names : List String) : List Path.Component :=
  db.rootPath ++ names.map fun name => .normal name.toList

def pitrRootPath (db : ManagedDatabase) : List Path.Component := db.under ["pitr"]

def pitrArchivePath (db : ManagedDatabase) : List Path.Component := db.under ["pitr", "wal"]

def pitrBackupsPath (db : ManagedDatabase) : List Path.Component :=
  db.under ["pitr", "basebackups"]

def proxyConfigPath (db : ManagedDatabase) : List Path.Component := db.under ["pgdog"]

end ManagedDatabase

/-- The containers of `isRunning` to `removeContainer` are known by the daemon's own id;
`ensureImage` and `ensureNetwork` make what is missing. -/
inductive DatabaseOp where
  | newUuid
  | getManagedDatabase (id : Uuid)
  | saveManagedDatabase (db : ManagedDatabase)
  | deleteManagedDatabase (id : Uuid)
  | getServiceInventory (ownerId id : Uuid)
  | resolveGroupId (userId : Uuid) (groupId : Option String)
  | ensureImage (image : String)
  | ensureHostDir (path : List Path.Component)
  | writeFile (path : List Path.Component)
  | ensureNetwork (name : String)
  | createContainer (name : String)
  | removeContainerIfExists (name : String)
  | isRunning (serial : Nat)
  | startContainer (serial : Nat)
  | waitForReady (serial timeoutSecs : Nat)
  | stopContainer (serial : Nat)
  | removeContainer (serial : Nat)
  | networkExists (name : String)
  | removeNetwork (name : String)
  | removeDirAll (root : List Path.Component)
deriving DecidableEq, Repr

def DatabaseOp.Answer : DatabaseOp → Type
  | .newUuid => Uuid
  | .getManagedDatabase _ => Except String (Option ManagedDatabase)
  | .deleteManagedDatabase _ | .getServiceInventory _ _ | .waitForReady _ _ => Except String Bool
  | .resolveGroupId _ _ => Except ApiError (Option Uuid)
  | .createContainer _ => Except String Nat
  | .isRunning _ | .networkExists _ => Bool
  | .saveManagedDatabase _ | .ensureImage _ | .ensureHostDir _ | .writeFile _ | .ensureNetwork _
  | .removeContainerIfExists _ | .startContainer _ | .stopContainer _ | .removeContainer _
  | .removeNetwork _ | .removeDirAll _ => Except String Unit

abbrev DatabaseEffects : Interface := ⟨DatabaseOp, DatabaseOp.Answer⟩

abbrev Prog (Value : Type) : Type := Program DatabaseEffects Value

def DatabaseOp.call (op : DatabaseOp) : Prog op.Answer := @Program.perform DatabaseEffects op

/-- A `Result` of the runtime; the errors are shown as they are displayed. -/
abbrev FallibleProg (Value : Type) : Type := ExceptT String (Program DatabaseEffects) Value

abbrev HandlerProg (Value : Type) : Type := ExceptT ApiError (Program DatabaseEffects) Value

def orInternal {Value : Type} (program : Prog (Except String Value)) : HandlerProg Value :=
  ExceptT.mk (program.bind fun result => .pure (match result with
    | .ok value => .ok value
    | .error _ => .error internalError))

/-- `let _ = ..`. -/
def ignore {Value : Type} (program : Prog Value) : Prog Unit := program.bind fun _ => .pure ()

def operation {Value : Type} (message : String) : FallibleProg Value :=
  throw ("operation failed: " ++ message)

def serviceManagerError (action error : String) : ApiError :=
  ⟨500, "failed to " ++ action ++ ": " ++ error⟩

def isRunning (db : ManagedDatabase) : Prog Bool :=
  match db.containerId with
  | none => .pure false
  | some serial => (DatabaseOp.isRunning serial).call

def removeIfExists (name : String) : FallibleProg Unit :=
  ExceptT.mk (DatabaseOp.removeContainerIfExists name).call

def ensureHostDir (path : List Path.Component) : FallibleProg Unit :=
  ExceptT.mk (DatabaseOp.ensureHostDir path).call

def preparePostgresPitrDirs (db : ManagedDatabase) : FallibleProg Unit := do
  ensureHostDir db.pitrRootPath
  ensureHostDir db.pitrArchivePath
  ensureHostDir db.pitrBackupsPath

/-- Creates a container, starts it and waits; one that is not ready in time is removed. -/
def runContainer (name : String) (timeoutSecs : Nat) (notReady : String) : FallibleProg Nat := do
  let serial : Nat ← ExceptT.mk (DatabaseOp.createContainer name).call
  ExceptT.mk (DatabaseOp.startContainer serial).call
  let ready : Bool ← ExceptT.mk (DatabaseOp.waitForReady serial timeoutSecs).call
  if ready then return serial
  else do
    liftM (ignore (DatabaseOp.removeContainerIfExists name).call)
    operation notReady

/-- `start_database` up to where the record takes the container. -/
def launchDatabase (db : ManagedDatabase) : FallibleProg Nat := do
  if db.proxyEnabled && db.dbType ≠ .postgresql then
    operation "pgdog proxy is only supported for postgresql"
  else do
    let running : Bool ← liftM (isRunning db)
    if running then operation "database is already running"
    else do
      ExceptT.mk (DatabaseOp.ensureImage db.dockerImage).call
      removeIfExists (databaseContainerName db.id)
      removeIfExists (proxyContainerName db.id)
      ensureHostDir (Path.components db.hostDataPath)
      ExceptT.mk (DatabaseOp.ensureNetwork db.networkName).call
      if db.dbType = .postgresql && db.pitrEnabled then preparePostgresPitrDirs db
      if 9223372036854775808 ≤ db.memoryLimit then
        operation ("invalid database memory_limit value: " ++ toString db.memoryLimit)
      else runContainer (databaseContainerName db.id) 90 "database container did not become ready"

def pgdogImage : String := "ghcr.io/pgdogdev/pgdog:v0.1.6"

def startProxyFrontend (db : ManagedDatabase) : FallibleProg Unit := do
  if !db.proxyEnabled then return ()
  else if db.dbType ≠ .postgresql then
    operation "pgdog proxy is only supported for postgresql"
  else do
    ExceptT.mk (DatabaseOp.ensureImage pgdogImage).call
    ExceptT.mk (DatabaseOp.ensureNetwork db.networkName).call
    ensureHostDir db.proxyConfigPath
    ExceptT.mk (DatabaseOp.writeFile (db.under ["pgdog", "pgdog.toml"])).call
    ExceptT.mk (DatabaseOp.writeFile (db.under ["pgdog", "users.toml"])).call
    let _ ← runContainer (proxyContainerName db.id) 30 "pgdog frontend did not become ready"

def stopOwnContainer (db : ManagedDatabase) : Prog Unit :=
  match db.containerId with
  | none => .pure ()
  | some serial =>
      (DatabaseOp.stopContainer serial).call.bind fun _ =>
        (DatabaseOp.removeContainer serial).call.bind fun _ => .pure ()

def removeNetworkIfExists (name : String) : FallibleProg Unit := do
  let present : Bool ← liftM (DatabaseOp.networkExists name).call
  if present then ExceptT.mk (DatabaseOp.removeNetwork name).call

/-- The record is left as it is when the proxy stays. -/
def stopDatabase (db : ManagedDatabase) : Prog (Except String Unit × ManagedDatabase) :=
  (removeIfExists (proxyContainerName db.id)).run.bind fun
    | .error message => .pure (.error message, db)
    | .ok () =>
        (stopOwnContainer db).bind fun _ =>
          let stopped := { db with containerId := none, status := .stopped }
          if db.groupId.isNone then
            (removeNetworkIfExists db.networkName).run.bind fun result => .pure (result, stopped)
          else .pure (.ok (), stopped)

def startDatabase (db : ManagedDatabase) : Prog (Except String Nat × ManagedDatabase) :=
  (launchDatabase db).run.bind fun
    | .error message => .pure (.error message, db)
    | .ok serial =>
        let started := { db with containerId := some serial, status := .running }
        if db.proxyEnabled then
          (startProxyFrontend started).run.bind fun
            | .error message =>
                (stopDatabase started).bind fun stopped => .pure (.error message, stopped.2)
            | .ok () => .pure (.ok serial, started)
        else .pure (.ok serial, started)

def saveRecord (db : ManagedDatabase) : HandlerProg Unit :=
  orInternal (DatabaseOp.saveManagedDatabase db).call

def resolveOwnedDatabase (userId id : Uuid) : HandlerProg ManagedDatabase := do
  match ← orInternal (DatabaseOp.getManagedDatabase id).call with
  | none => throw (notFound "service not found")
  | some db =>
      if db.ownerId = userId then return db
      else throw (forbidden "access denied")

def serviceResponse (userId id : Uuid) : HandlerProg Unit := do
  let found ← orInternal (DatabaseOp.getServiceInventory userId id).call
  if found then return () else throw (notFound "service not found")

inductive ServiceAction where
  | start | stop | restart
deriving DecidableEq, Repr

def ensureDatabaseNotStarting (db : ManagedDatabase) : HandlerProg Unit :=
  if db.status = .starting then throw (conflict "database is already starting") else pure ()

def markDatabaseStarting (db : ManagedDatabase) : ManagedDatabase :=
  { db with status := .starting, containerId := none }

def startRecorded (action : String) (db : ManagedDatabase) : HandlerProg Unit := do
  saveRecord db
  let (result, after) ← liftM (startDatabase db)
  match result with
  | .error error => do
      liftM (ignore (DatabaseOp.saveManagedDatabase { after with status := .failed }).call)
      throw (serviceManagerError action error)
  | .ok _ => saveRecord after

def runDatabaseAction (action : ServiceAction) (db : ManagedDatabase) : HandlerProg Unit := do
  match action with
  | .start => do
      ensureDatabaseNotStarting db
      let running : Bool ← liftM (isRunning db)
      if running then throw (badRequest "database is already running")
      else startRecorded "start service" (markDatabaseStarting db)
  | .stop => do
      let (result, after) ← liftM (stopDatabase db)
      match result with
      | .error error => throw (serviceManagerError "stop service" error)
      | .ok () => saveRecord after
  | .restart => do
      ensureDatabaseNotStarting db
      let (result, after) ← liftM (stopDatabase db)
      match result with
      | .error error => throw (serviceManagerError "restart service" error)
      | .ok () => startRecorded "restart service" (markDatabaseStarting after)

/-- `run_action` for a managed database. -/
def runAction (action : ServiceAction) (userId id : Uuid) : HandlerProg Unit := do
  let db ← resolveOwnedDatabase userId id
  runDatabaseAction action db
  serviceResponse userId id

structure CreateDatabase where
  name : String
  dbType : DatabaseType
  version : Option String
  memoryLimitMb : Option Nat
  groupId : Option String
deriving DecidableEq, Repr

/-- The limit is a `u64` and wraps. -/
def CreateDatabase.record (form : CreateDatabase) (id userId : Uuid) (dataDir : String) :
    ManagedDatabase :=
  let fresh := ManagedDatabase.newWithPath id userId form.name form.dbType dataDir
  { fresh with
    version := form.version.getD fresh.version
    memoryLimit := (form.memoryLimitMb.map (· * 1024 * 1024 % 18446744073709551616)).getD
      fresh.memoryLimit }

def createDatabase (dataDir : String) (userId : Uuid) (form : CreateDatabase) :
    HandlerProg Unit := do
  if form.name.isEmpty || 64 < form.name.utf8ByteSize then
    throw (badRequest "name must be 1-64 characters")
  else do
    let id : Uuid ← liftM DatabaseOp.newUuid.call
    let groupId : Option Uuid ← ExceptT.mk (DatabaseOp.resolveGroupId userId form.groupId).call
    let db := { form.record id userId dataDir with groupId := groupId }
    startRecorded "create database" (markDatabaseStarting db)
    serviceResponse userId id

def removeData (dataDir : String) (db : ManagedDatabase) : Prog Unit :=
  if (Path.components dataDir).isPrefixOf db.rootPath then
    ignore (DatabaseOp.removeDirAll db.rootPath).call
  else .pure ()

/-- `delete_service` for a managed database. -/
def deleteDatabase (dataDir : String) (userId id : Uuid) : HandlerProg Unit := do
  let db ← resolveOwnedDatabase userId id
  liftM (ignore (stopDatabase db))
  liftM (removeData dataDir db)
  let _ ← orInternal (DatabaseOp.deleteManagedDatabase db.id).call

inductive Request where
  | create (userId : Uuid) (form : CreateDatabase)
  | act (action : ServiceAction) (userId id : Uuid)
  | delete (userId id : Uuid)
deriving DecidableEq, Repr

def handle (dataDir : String) : Request → Prog (Except ApiError Unit)
  | .create userId form => (createDatabase dataDir userId form).run
  | .act action userId id => (runAction action userId id).run
  | .delete userId id => (deleteDatabase dataDir userId id).run

structure DatabaseContainer where
  serial : Nat
  name : String
  running : Bool
deriving DecidableEq, Repr

structure Fleet where
  databases : List ManagedDatabase
  containers : List DatabaseContainer
  nextSerial : Nat
deriving DecidableEq, Repr

/-- A fault of the store or the daemon, or the answer from outside. -/
def DatabaseOp.Choice : DatabaseOp → Type
  | .getManagedDatabase _ | .saveManagedDatabase _ | .deleteManagedDatabase _
  | .createContainer _ | .removeContainerIfExists _ | .startContainer _ | .stopContainer _
  | .removeContainer _ => Option String
  | op => op.Answer

namespace Fleet

def isThere (fleet : Fleet) (serial : Nat) : Bool := fleet.containers.any (·.serial = serial)

def keep (fleet : Fleet) (kept : DatabaseContainer → Bool) : Fleet :=
  { fleet with containers := fleet.containers.filter kept }

def switch (fleet : Fleet) (serial : Nat) (running : Bool) : Fleet :=
  { fleet with containers := fleet.containers.map fun container =>
      if container.serial = serial then { container with running := running } else container }

def withContainer (fleet : Fleet) (serial : Nat) (after : Fleet) : Except String Unit × Fleet :=
  if fleet.isThere serial then (.ok (), after) else (.error "No such container", fleet)

/-- Names are unique; the id is new. -/
def create (fleet : Fleet) (name : String) : Except String Nat × Fleet :=
  if fleet.containers.any (·.name = name) then (.error "name is already in use", fleet)
  else (.ok fleet.nextSerial, { fleet with
    containers := fleet.containers ++ [⟨fleet.nextSerial, name, false⟩]
    nextSerial := fleet.nextSerial + 1 })

def save (fleet : Fleet) (db : ManagedDatabase) : Fleet :=
  { fleet with databases := upsert (·.id) db fleet.databases }

def delete (fleet : Fleet) (id : Uuid) : Fleet :=
  { fleet with databases := fleet.databases.filter (·.id ≠ id) }

/-- The answer of a statement or a request that may fail. -/
def attempt {Reply : Type} (fleet : Fleet) (fault : Option String)
    (served : Except String Reply × Fleet) : Except String Reply × Fleet :=
  match fault with
  | some message => (.error message, fleet)
  | none => served

end Fleet

def DatabaseOp.exec : (op : DatabaseOp) → op.Choice → Fleet → op.Answer × Fleet
  | .getManagedDatabase id, fault, fleet =>
      fleet.attempt fault (.ok (lookup (·.id) id fleet.databases), fleet)
  | .saveManagedDatabase db, fault, fleet => fleet.attempt fault (.ok (), fleet.save db)
  | .deleteManagedDatabase id, fault, fleet =>
      fleet.attempt fault (.ok (fleet.databases.any (·.id = id)), fleet.delete id)
  | .createContainer name, fault, fleet => fleet.attempt fault (fleet.create name)
  | .removeContainerIfExists name, fault, fleet =>
      fleet.attempt fault (.ok (), fleet.keep (·.name ≠ name))
  | .startContainer serial, fault, fleet =>
      fleet.attempt fault (fleet.withContainer serial (fleet.switch serial true))
  | .stopContainer serial, fault, fleet =>
      fleet.attempt fault (fleet.withContainer serial (fleet.switch serial false))
  | .removeContainer serial, fault, fleet =>
      fleet.attempt fault (fleet.withContainer serial (fleet.keep (·.serial ≠ serial)))
  | .newUuid, reply, fleet => (reply, fleet)
  | .getServiceInventory _ _, reply, fleet => (reply, fleet)
  | .resolveGroupId _ _, reply, fleet => (reply, fleet)
  | .ensureImage _, reply, fleet => (reply, fleet)
  | .ensureHostDir _, reply, fleet => (reply, fleet)
  | .writeFile _, reply, fleet => (reply, fleet)
  | .ensureNetwork _, reply, fleet => (reply, fleet)
  | .isRunning _, reply, fleet => (reply, fleet)
  | .waitForReady _ _, reply, fleet => (reply, fleet)
  | .networkExists _, reply, fleet => (reply, fleet)
  | .removeNetwork _, reply, fleet => (reply, fleet)
  | .removeDirAll _, reply, fleet => (reply, fleet)

def databaseSystem : Machine DatabaseEffects Fleet :=
  ⟨DatabaseOp.Choice, DatabaseOp.exec, fun _ _ _ => True⟩

end Containr.Managed.Databases
