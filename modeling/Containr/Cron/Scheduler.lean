import Containr.Effect.Map
import Containr.Worker.Job

/-!
# `CronJobScheduler` of `containr-runtime/src/cron_scheduler.rs`

`poll_once` holds its two maps through `&mut`, so what a pass did before an early
return stays done: the maps are an accumulator here, returned beside the result.
The parser and calendar of the `croner` crate are a parameter. A pass also returns
the launch attempts it made, in order. An attempt is dated by the clock reading
its slot was advanced from; nothing depends on the unit of the clock.
-/

namespace Containr.Cron

open Containr.Effect
open Containr.Worker (insertEnv)

/-- An app and one of its services. -/
abbrev Key : Type := Uuid × Uuid

structure CronScheduleState where
  schedule : String
  deploymentId : Uuid
  nextRunAt : Time
deriving DecidableEq

structure RunningCronJob where
  containerName : String
  deploymentId : Uuid
  serviceName : String
deriving DecidableEq

abbrev Schedules : Type := Map Key CronScheduleState

abbrev RunningJobs : Type := Map Key RunningCronJob

/-- `Cron::from_str` and `find_next_occurrence(_, false)`. -/
structure Croner (Cron : Type) where
  fromStr : String → Except String Cron
  findNextOccurrence : Cron → Time → Except String Time

structure CronJobScheduler (Cron : Type) where
  runtime : Runtime
  croner : Croner Cron

/-- One launch attempt, with the keys of `running_jobs` when it was made. -/
structure Attempt where
  key : Key
  schedule : String
  time : Time
  tracked : List Key
deriving DecidableEq

/-- The two maps of `run`. -/
structure Tables where
  schedules : Schedules
  runningJobs : RunningJobs
deriving DecidableEq

def Tables.empty : Tables := ⟨Map.empty, Map.empty⟩

variable {Cron : Type}

def nextScheduleState (scheduler : CronJobScheduler Cron) (schedule : String) (deploymentId : Uuid)
    (start : Time) : Except String CronScheduleState :=
  match scheduler.croner.fromStr schedule with
  | .error _ => .error ("invalid cron schedule " ++ schedule)
  | .ok cron =>
      match scheduler.croner.findNextOccurrence cron start with
      | .error _ => .error ("schedule " ++ schedule ++ " has no next run")
      | .ok next => .ok ⟨schedule, deploymentId, next⟩

def needsState (schedules : Schedules) (key : Key) (schedule : String) (deploymentId : Uuid) :
    Bool :=
  match schedules.get key with
  | none => true
  | some state => state.schedule ≠ schedule || state.deploymentId ≠ deploymentId

/-- Builds the entry anew where it is needed. An invalid schedule has no entry left. -/
def ensureState (scheduler : CronJobScheduler Cron) (schedules : Schedules) (key : Key)
    (schedule : String) (deploymentId : Uuid) : Sys Schedules :=
  if needsState schedules key schedule deploymentId then
    utcNow.bind fun now =>
      .pure (match nextScheduleState scheduler schedule deploymentId now with
        | .ok state => schedules.insert key state
        | .error _ => schedules.remove key)
  else .pure schedules

def resolveRunningDeployment (appId : Uuid) : Fallible (Option Deployment) := do
  let deployments ← Store.listDeploymentsByApp appId
  return deployments.find? (·.status = .running)

def buildSharedEnvVars (app : App) : List (String × String) :=
  app.envVars.foldl (fun env var => insertEnv env var.key var.value) []

def resolveServiceImage (service : ContainerService) (deployment : Deployment) :
    Except String String :=
  match (deployment.serviceDeployments.find? fun row =>
      row.serviceId = service.id && row.imageId.isSome).bind (·.imageId) with
  | some image => .ok image
  | none =>
      if !Text.blank service.image then .ok service.image
      else match deployment.imageId with
        | some image => .ok image
        | none => .error ("no deployed image found for cron job " ++ service.name)

def sanitizeName (value : String) : String :=
  let sanitized := value.toList.map fun ch =>
    if Text.isAsciiAlphanumeric ch || ch = '-' || ch = '_' then ch else '-'
  if sanitized.isEmpty then "job" else String.ofList sanitized

def truncateName (value : String) (maxLen : Nat) : String :=
  if value.utf8ByteSize ≤ maxLen then value else Text.takeChars maxLen value

/-- The text before the first hyphen. -/
def shortId (value : String) : String := String.ofList (value.toList.takeWhile (· ≠ '-'))

def cronContainerName (app : App) (service : ContainerService) (now : Time) : String :=
  "containr-cron-" ++ shortId app.id.toString ++ "-" ++
    truncateName (sanitizeName service.name) 12 ++ "-" ++ Text.compactTimestamp now

def cronEnv (shared : List (String × String)) (service : ContainerService) :
    List (String × String) :=
  let named := insertEnv (insertEnv shared "SERVICE_NAME" service.name)
    "CRON_SCHEDULE" (service.schedule.getD "")
  service.envVars.foldl (fun env var => insertEnv env var.key var.value) named

def cronConfig (app : App) (service : ContainerService) (image name : String)
    (shared : List (String × String)) (mounts : List DockerBindMount) : DockerContainerConfig where
  id := name
  image := image
  envVars := cronEnv shared service
  port := 0
  additionalPorts := []
  portMappings := []
  command := service.command
  entrypoint := service.entrypoint
  workingDir := service.workingDir
  memoryLimit := service.memoryLimit
  cpuLimit := service.cpuLimit
  network := some ⟨app.networkName, [service.name ++ "-cron"]⟩
  mounts := mounts
  additionalNetworks := []
  healthCheck := none
  restartPolicy := "no"

def pullCronImage (scheduler : CronJobScheduler Cron) (app : App) (service : ContainerService)
    (image : String) : Fallible Unit :=
  if shouldPullServiceImage service image then do
    let credentials ← resolveRegistryCredentials scheduler.runtime app.ownerId service service.image
    ExceptT.mk (external (.pullImage image credentials))
  else pure ()

def startCronContainer (app : App) (deployment : Deployment) (service : ContainerService)
    (config : DockerContainerConfig) : Fallible String := do
  let created ← liftM (createContainerAs (.cron app.id service.id config) config).run
  match created with
  | .error message =>
      removeContainer config.id
      throw message
  | .ok _ =>
      ignore (Store.appendDeploymentLog deployment.id
        ("cron job " ++ service.name ++ " started in container " ++ config.id))
      return config.id

def launchCronJob (scheduler : CronJobScheduler Cron) (app : App) (deployment : Deployment)
    (service : ContainerService) (image : String) (shared : List (String × String)) :
    Fallible String := do
  pullCronImage scheduler app service image
  let now ← utcNow
  ExceptT.mk (external (.createNetwork app.networkName))
  let mounts ← buildServiceMounts scheduler.runtime.workDir app.id service
  ignore (Store.appendDeploymentLog deployment.id ("starting cron job " ++ service.name))
  startCronContainer app deployment service
    (cronConfig app service image (cronContainerName app service now) shared mounts)

def launch (scheduler : CronJobScheduler Cron) (app : App) (deployment : Deployment)
    (service : ContainerService) (shared : List (String × String)) : Fallible String := do
  let image ← ExceptT.mk (.pure (resolveServiceImage service deployment))
  launchCronJob scheduler app deployment service image shared

def iterationKeys (jobs : RunningJobs) : Sys (List Key) :=
  (hashOrder jobs.keys.length).bind fun order =>
    .pure (order.val.filterMap fun position => jobs.keys[position]?)

def finishedAt (reported : Option String) : Sys String :=
  match reported with
  | some time => .pure time
  | none => utcNow.bind fun now => .pure (Text.toRfc3339 now)

def closeJob (job : RunningCronJob) : Sys Unit := do
  let state : Except String (String × Option String) ← external (.containerState job.containerName)
  let status := match state with
    | .ok (status, _) => status
    | .error _ => "finished"
  let time ← finishedAt (match state with
    | .ok (_, reported) => reported
    | .error _ => none)
  ignore (Store.appendDeploymentLog job.deploymentId ("cron job " ++ job.serviceName ++
    " finished with status " ++ status ++ " at " ++ time))
  removeContainer job.containerName

/-- One round of the loop; the accumulator is `finished`. -/
def reconcileJob (jobs : RunningJobs) (finished : List Key) (key : Key) : Sys (List Key) :=
  match jobs.get key with
  | none => .pure finished
  | some job => (isRunning job.containerName).bind fun running =>
      if running then .pure finished
      else (closeJob job).bind fun _ => .pure (finished ++ [key])

/-- `is_running` never fails, so neither does this. -/
def reconcileRunningJobs (jobs : RunningJobs) : Sys RunningJobs :=
  (iterationKeys jobs).bind fun keys =>
    (Program.fold (reconcileJob jobs) keys []).bind fun finished =>
      .pure (finished.foldl Map.remove jobs)

def removeOrphan (jobs : RunningJobs) (key : Key) : Sys RunningJobs :=
  match jobs.get key with
  | none => .pure jobs
  | some job => (removeContainer job.containerName).bind fun _ => .pure (jobs.remove key)

/-- What a pass carries along: the maps, `active_keys` and the attempts made. -/
structure Pass where
  schedules : Schedules
  runningJobs : RunningJobs
  activeKeys : List Key
  attempts : List Attempt

def Pass.tables (pass : Pass) : Tables := ⟨pass.schedules, pass.runningJobs⟩

def attemptLaunch (scheduler : CronJobScheduler Cron) (app : App) (deployment : Deployment)
    (shared : List (String × String)) (service : ContainerService) (pass : Pass) : Sys Pass :=
  (launch scheduler app deployment service shared).run.bind fun launched =>
    match launched with
    | .ok name => .pure { pass with
        runningJobs := pass.runningJobs.insert (app.id, service.id)
          ⟨name, deployment.id, service.name⟩ }
    | .error message => (ignore (Store.appendDeploymentLog deployment.id
        ("cron job " ++ service.name ++ " failed to start: " ++ message))).bind fun _ => .pure pass

def runDueJob (scheduler : CronJobScheduler Cron) (app : App) (deployment : Deployment)
    (shared : List (String × String)) (service : ContainerService) (schedule : String)
    (pass : Pass) : Sys Pass :=
  utcNow.bind fun now =>
    match nextScheduleState scheduler schedule deployment.id now with
    | .error _ => .pure { pass with schedules := pass.schedules.remove (app.id, service.id) }
    | .ok next => attemptLaunch scheduler app deployment shared service { pass with
        schedules := pass.schedules.insert (app.id, service.id) next
        attempts := pass.attempts ++
          [⟨(app.id, service.id), schedule, now, pass.runningJobs.keys⟩] }

def runIfDue (scheduler : CronJobScheduler Cron) (app : App) (deployment : Deployment)
    (shared : List (String × String)) (service : ContainerService) (schedule : String)
    (pass : Pass) : Sys Pass :=
  match pass.schedules.get (app.id, service.id) with
  | none => .pure pass
  | some state =>
      if pass.runningJobs.contains (app.id, service.id) then .pure pass
      else utcNow.bind fun now =>
        if now < state.nextRunAt then .pure pass
        else runDueJob scheduler app deployment shared service schedule pass

def pollService (scheduler : CronJobScheduler Cron) (app : App) (deployment : Deployment)
    (shared : List (String × String)) (pass : Pass) (service : ContainerService) : Sys Pass :=
  match service.schedule with
  | none => .pure pass
  | some schedule =>
      (ensureState scheduler pass.schedules (app.id, service.id) schedule deployment.id).bind
        fun schedules => runIfDue scheduler app deployment shared service schedule { pass with
          schedules := schedules
          activeKeys := pass.activeKeys.insert (app.id, service.id) }

def pollApp (scheduler : CronJobScheduler Cron) (pass : Pass) (app : App) :
    Sys (Except String Unit × Pass) :=
  (resolveRunningDeployment app.id).run.bind fun resolved =>
    match resolved with
    | .error message => .pure (.error message, pass)
    | .ok none => .pure (.ok (), pass)
    | .ok (some deployment) =>
        (Program.fold (pollService scheduler app deployment (buildSharedEnvVars app))
          (app.services.filter (·.isCronJob)) pass).bind fun pass => .pure (.ok (), pass)

def forgetInactive (pass : Pass) : Sys Pass :=
  (iterationKeys pass.runningJobs).bind fun keys =>
    (Program.fold removeOrphan (keys.filter fun key => key ∉ pass.activeKeys)
      pass.runningJobs).bind fun jobs => .pure { pass with
        schedules := pass.schedules.retain fun key _ => key ∈ pass.activeKeys
        runningJobs := jobs }

def pollApps (scheduler : CronJobScheduler Cron) (pass : Pass) : Sys (Except String Unit × Pass) :=
  Store.listApps.run.bind fun listed =>
    match listed with
    | .error message => .pure (.error message, pass)
    | .ok apps => (Program.iterate (pollApp scheduler) apps pass).bind fun polled =>
        match polled.1 with
        | .error message => .pure (.error message, polled.2)
        | .ok () => (forgetInactive polled.2).bind fun pass => .pure (.ok (), pass)

def pollOnce (scheduler : CronJobScheduler Cron) (tables : Tables) :
    Sys (Except String Unit × Pass) :=
  (reconcileRunningJobs tables.runningJobs).bind fun jobs =>
    pollApps scheduler ⟨tables.schedules, jobs, [], []⟩

def everyMinute : Croner Unit where
  fromStr schedule := if schedule = "* * * * *" then .ok () else .error "invalid pattern"
  findNextOccurrence _ start := .ok ((start / 60 + 1) * 60)

def demoScheduler : CronJobScheduler Unit := ⟨Worker.demoRuntime, everyMinute⟩

def demoCronService : ContainerService :=
  { Worker.demoService with
    name := "report"
    serviceType := .cronJob
    schedule := some "* * * * *" }

def demoCronWorld : World :=
  { Worker.demoWorld with
    db := { Worker.demoWorld.db with
      services := [demoCronService]
      deployments := [{ Worker.demoDeployment with status := .running }] } }

/-- No faults; the clock stands still during a pass. -/
def calmAt (time : Time) : system.Policy
  | .utcNow, _ => time
  | op, world => calm op world

/-- As `calmAt`, but docker refuses to create containers. -/
def refusingAt (time : Time) : system.Policy
  | .docker (.createContainer _ _), _ => some "docker is out of space"
  | op, world => calmAt time op world

end Containr.Cron
