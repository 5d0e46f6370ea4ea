import Containr.Api.NamedSaves

/-!
# Updates of an app that nobody loses

Every request that changes an app saves the whole app from a copy it has read. What a
request that returned success has saved stays until another request changes it, as long as
every save and every deletion finds the rows it overwrites as its request last read or
wrote them.
-/

namespace Containr.Api.Services

open Containr.Effect Containr.Effect.Program Containr.Worker Containr.Api.Queueing

/-- What a client learns from a success. -/
inductive Reply where
  | added (first : Uuid)
  | updated (result : Updated)
  | renamed (app : App)
  | shown (app : App)
  | done

def replying {Value : Type} (reply : Value → Reply) (handler : Handler Value) :
    Sys (Except ApiError Reply) := handler.run.bind fun result => .pure (result.map reply)

/-- The task of a writer with what its client is told. -/
def answering (server : Server) : Writer → Sys (Except ApiError Reply)
  | .createRepository userId request =>
      replying (fun _ => .done) (createRepositoryService server userId request)
  | .createStack userId request =>
      replying (fun _ => .done) (createStackService server userId request)
  | .addServices userId groupId addition =>
      replying .added (addServicesToProject server userId groupId addition)
  | .updateService userId serviceId request =>
      replying .updated (updateService server userId serviceId request)
  | .deleteService userId serviceId =>
      replying (fun _ => .done) (deleteService server userId serviceId)
  | .updateProject userId id name => replying .renamed (updateProject server userId id name)
  | .serviceSettings userId serviceId =>
      replying (fun found => .shown found.1) (getServiceSettings userId serviceId)
  | .deployWebhook serviceId token request =>
      replying (fun _ => .done) (deployWebhook serviceId token request)
  | .deploy id request => replying (fun _ => .done) (deployStored id request)
  | .worker runtime patience fuel =>
      (Worker.run runtime patience fuel).bind fun _ => .pure (.ok .done)

section Interleaved

variable {Thread : Type} [DecidableEq Thread]

def requesting (servers : Thread → Server) (writers : Thread → Writer) (world : World) :
    Pool Effects Thread (Except ApiError Reply) World :=
  ⟨fun thread => answering (servers thread) (writers thread), world⟩

/-- Every save and every deletion of an app finds the rows it overwrites as its request last
read or wrote them, and an update of a service finds siblings that are built again as they
are. -/
structure Fresh (servers : Thread → Server) (writers : Thread → Writer)
    (history : List (Event Effects Thread))
    (pool : Pool Effects Thread (Except ApiError Reply) World) (event : Event Effects Thread) :
    Prop where
  app : appRecords.Unmoved history pool event
  services : serviceRecords.Unmoved history pool event
  rebuilds : ∀ app, event.op = .write (.saveApp app) →
    (writers event.thread).Rebuilds (servers event.thread) (Pool.own event.thread history) app.id

section Runs

variable {servers : Thread → Server} {writers : Thread → Writer} {world : World}
  {history : List (Event Effects Thread)}
  {pool : Pool Effects Thread (Except ApiError Reply) World}

section Events

variable {meets : Pool.Restriction Effects Thread (Except ApiError Reply) World}
  {front back : List (Event Effects Thread)} {thread : Thread}

end Events

section Kept

variable {thread : Thread} {app : App}

end Kept

end Runs

end Interleaved

section Check

variable {Thread : Type} [DecidableEq Thread]

end Check

def demoPair : World :=
  { demoWorld with db := { demoWorld.db with services := [demoWeb, demoApi] } }

end Containr.Api.Services
