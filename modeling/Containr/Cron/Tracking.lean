import Containr.Cron.Scheduler
import Containr.Steps
import Containr.Worker.Footprint

/-!
# Cron containers and `running_jobs`

The scheduler is not alone: before each of its calls other tasks may change the
store as they like and stop or remove containers, but only the scheduler creates
cron containers. Removals succeed; everything else may fail. Every existing cron
container is then tracked under its key, through failed launches and early
returns, as long as the process does not restart while such a container exists.
-/

namespace Containr.Cron

open Containr.Effect
open Containr.Effect.Program

def cronKey (container : Container) : Option Key :=
  match container.body with
  | .cron appId serviceId _ => some (appId, serviceId)
  | .service _ | .seed _ => none

/-- The cron containers of `after` were there before. -/
def CronFrom (before after : World) : Prop :=
  ∀ container ∈ after.containers, ∀ key, cronKey container = some key →
    ∃ old ∈ before.containers, old.name = container.name ∧ cronKey old = some key

def NamesUnique (world : World) : Prop := (world.containers.map (·.name)).Nodup

/-- What other tasks may do between two calls of the scheduler. -/
structure Changed (before after : World) : Prop where
  names : NamesUnique after
  cron : CronFrom before after

/-- The calls of the scheduler beside other tasks. -/
def Shared : Behaviour Effects World := fun op before answer after =>
  ∃ middle, Changed before middle ∧ removing.can op middle answer after

/-- Every existing cron container is in `running_jobs` under its key. -/
def Tracked (jobs : RunningJobs) (world : World) : Prop :=
  ∀ container ∈ world.containers, ∀ key, cronKey container = some key →
    ∃ job, jobs.get key = some job ∧ job.containerName = container.name

def AtMostOne (world : World) : Prop :=
  ∀ first ∈ world.containers, ∀ second ∈ world.containers, ∀ key,
    cronKey first = some key → cronKey second = some key → first = second

def NoCronContainers (world : World) : Prop :=
  ∀ container ∈ world.containers, cronKey container = none

def Gone (name : String) (world : World) : Prop :=
  ∀ container ∈ world.containers, ∀ key, cronKey container = some key → container.name ≠ name

theorem cron_from_rfl (world : World) : CronFrom world world :=
  fun container member _ isKey => ⟨container, member, rfl, isKey⟩

theorem CronFrom.trans {first second third : World} (earlier : CronFrom first second)
    (later : CronFrom second third) : CronFrom first third := by
  intro container member key isKey
  obtain ⟨middle, inMiddle, sameName, middleKey⟩ := later container member key isKey
  obtain ⟨old, inOld, oldName, oldKey⟩ := earlier middle inMiddle key middleKey
  exact ⟨old, inOld, oldName.trans sameName, oldKey⟩

variable {before after : World} {jobs : RunningJobs}

theorem Tracked.from (tracked : Tracked jobs before) (kept : CronFrom before after) :
    Tracked jobs after := by
  intro container member key isKey
  obtain ⟨old, inOld, sameName, oldKey⟩ := kept container member key isKey
  obtain ⟨job, found, named⟩ := tracked old inOld key oldKey
  exact ⟨job, found, named.trans sameName⟩

theorem Gone.from {name : String} (gone : Gone name before) (kept : CronFrom before after) :
    Gone name after := by
  intro container member key isKey
  obtain ⟨old, inOld, sameName, oldKey⟩ := kept container member key isKey
  rw [← sameName]
  exact gone old inOld key oldKey

variable {world : World} {key : Key}

theorem Tracked.remove (tracked : Tracked jobs world)
    (gone : ∀ job, jobs.get key = some job → Gone job.containerName world) :
    Tracked (jobs.remove key) world := by
  intro container member other isKey
  obtain ⟨job, found, named⟩ := tracked container member other isKey
  refine ⟨job, ?_, named⟩
  rw [Map.get_remove, if_neg, found]
  intro same
  rw [same] at found
  exact gone job found container member other isKey named.symm

theorem Tracked.insert (tracked : Tracked jobs world) (free : jobs.get key = none)
    (job : RunningCronJob) : Tracked (jobs.insert key job) world := by
  intro container member other isKey
  obtain ⟨found, isIt, named⟩ := tracked container member other isKey
  refine ⟨found, ?_, named⟩
  have different : other ≠ key := by
    intro same
    rw [same, free] at isIt
    cases isIt
  rw [Map.get_insert_other jobs job different]
  exact isIt

theorem Tracked.undo {job : RunningCronJob} (tracked : Tracked (jobs.insert key job) world)
    (gone : Gone job.containerName world) : Tracked jobs world := by
  intro container member other isKey
  obtain ⟨found, isIt, named⟩ := tracked container member other isKey
  rw [Map.get_insert] at isIt
  split_ifs at isIt with same
  · have sameJob : job = found := Option.some.inj isIt
    rw [← sameJob] at named
    exact absurd named.symm (gone container member other isKey)
  · exact ⟨found, isIt, named⟩

theorem Tracked.at_most_one (tracked : Tracked jobs world) (names : NamesUnique world) :
    AtMostOne world := by
  intro first inFirst second inSecond key firstKey secondKey
  obtain ⟨job, found, named⟩ := tracked first inFirst key firstKey
  obtain ⟨other, foundToo, namedToo⟩ := tracked second inSecond key secondKey
  have sameJob : job = other := Option.some.inj (found.symm.trans foundToo)
  have sameName : first.name = second.name := by
    rw [← named, ← namedToo, sameJob]
  exact List.inj_on_of_nodup_map names inFirst inSecond sameName

theorem tracked_of_none (none : NoCronContainers world) (jobs : RunningJobs) :
    Tracked jobs world := by
  intro container member key isKey
  rw [none container member] at isKey
  cases isKey

def NoCron : Op → Prop
  | .docker (.createContainer _ (.cron _ _ _)) => False
  | _ => True

theorem quiet_no_cron (op : Op) (quiet : op.Quiet) : NoCron op := by
  cases op with
  | docker request =>
      cases request with
      | createContainer name body => exact quiet.elim
      | _ => trivial
  | _ => trivial

theorem set_running_cron (selected : Container → Bool) (value : Bool) (before : World) :
    CronFrom before { before with containers := setRunning selected value before.containers } := by
  intro container member key isKey
  obtain ⟨old, inOld, image⟩ := List.mem_map.mp member
  refine ⟨old, inOld, ?_⟩
  rw [← image] at isKey ⊢
  split_ifs at isKey ⊢
  · exact ⟨rfl, isKey⟩
  · exact ⟨rfl, isKey⟩

theorem set_running_unique (selected : Container → Bool) (value : Bool) (containers : List Container) :
    (setRunning selected value containers).map (·.name) = containers.map (·.name) := by
  unfold setRunning
  rw [List.map_map]
  apply List.map_congr_left
  intro container _
  by_cases isIt : selected container = true
  · simp [isIt]
  · simp [isIt]

theorem filtered_cron (before : World) (keep : Container → Bool) :
    CronFrom before { before with containers := before.containers.filter keep } := by
  intro container member key isKey
  exact ⟨container, (List.mem_filter.mp member).1, rfl, isKey⟩

theorem same_containers_cron (same : after.containers = before.containers) :
    CronFrom before after := by
  intro container member key isKey
  rw [same] at member
  exact ⟨container, member, rfl, isKey⟩

theorem possible_create_cron {name : String} {body : ContainerBody} {answer : Except String Nat}
    (possible : Possible (.docker (.createContainer name body)) before answer after) :
    ∀ container ∈ after.containers, ∀ key, cronKey container = some key →
      (container.name = name ∧ container.body = body) ∨
        ∃ old ∈ before.containers, old.name = container.name ∧ cronKey old = some key := by
  intro container member key isKey
  rcases possible_create possible with ⟨same, -⟩ | ⟨-, -, created⟩
  · rw [same] at member
    exact Or.inr ⟨container, member, rfl, isKey⟩
  · rw [created] at member
    rcases List.mem_append.mp member with old | new
    · exact Or.inr ⟨container, old, rfl, isKey⟩
    · rw [List.mem_singleton.mp new]
      exact Or.inl ⟨rfl, rfl⟩

theorem possible_cron {op : Op} {answer : op.Answer} (noCron : NoCron op)
    (possible : Possible op before answer after) : CronFrom before after := by
  by_cases isDocker : ∃ request, op = .docker request
  · obtain ⟨request, rfl⟩ := isDocker
    cases request with
    | createContainer name body =>
        intro container member key isKey
        rcases possible_create_cron possible container member key isKey with ⟨-, isBody⟩ | old
        · unfold cronKey at isKey
          cases body with
          | cron appId serviceId config => exact noCron.elim
          | service config => simp [isBody] at isKey
          | seed image => simp [isBody] at isKey
        · exact old
    | startContainer serial =>
        rcases possible_start possible with ⟨rfl, -⟩ | ⟨-, rfl⟩
        · exact cron_from_rfl _
        · exact set_running_cron _ _ _
    | stopContainer name =>
        rcases possible_stop possible with rfl | rfl
        · exact cron_from_rfl _
        · exact set_running_cron _ _ _
    | removeContainer name =>
        rcases possible_remove possible with rfl | rfl
        · exact cron_from_rfl _
        · exact filtered_cron _ _
    | inspectContainer name =>
        rcases possible_docker possible with served | ⟨rfl, -⟩
        · cases served
          exact cron_from_rfl _
        · exact cron_from_rfl _
    | listContainers =>
        rcases possible_docker possible with served | ⟨rfl, -⟩
        · cases served
          exact cron_from_rfl _
        · exact cron_from_rfl _
  · have same := (possible_untouched possible).containers fun request isIt =>
      isDocker ⟨request, isIt⟩
    exact same_containers_cron same.1

theorem possible_names {op : Op} {answer : op.Answer} (possible : Possible op before answer after)
    (unique : NamesUnique before) : NamesUnique after := by
  by_cases isDocker : ∃ request, op = .docker request
  · obtain ⟨request, rfl⟩ := isDocker
    unfold NamesUnique at unique ⊢
    cases request with
    | createContainer name body =>
        rcases possible_create possible with ⟨rfl, -⟩ | ⟨unused, -, rfl⟩
        · exact unique
        · rw [List.map_append, List.map_singleton]
          apply List.nodup_append.mpr
          refine ⟨unique, by simp, ?_⟩
          intro used member new only same
          rw [List.mem_singleton.mp only] at same
          obtain ⟨container, inUse, named⟩ := List.mem_map.mp member
          have taken : before.hasContainer name = true := by
            simp only [World.hasContainer, List.any_eq_true, decide_eq_true_eq]
            exact ⟨container, inUse, named.trans same⟩
          rw [unused] at taken
          cases taken
    | startContainer serial =>
        rcases possible_start possible with ⟨rfl, -⟩ | ⟨-, rfl⟩
        · exact unique
        · rw [set_running_unique]
          exact unique
    | stopContainer name =>
        rcases possible_stop possible with rfl | rfl
        · exact unique
        · rw [set_running_unique]
          exact unique
    | removeContainer name =>
        rcases possible_remove possible with rfl | rfl
        · exact unique
        · exact unique.sublist (List.filter_sublist.map _)
    | inspectContainer name =>
        rcases possible_docker possible with served | ⟨rfl, -⟩
        · cases served
          exact unique
        · exact unique
    | listContainers =>
        rcases possible_docker possible with served | ⟨rfl, -⟩
        · cases served
          exact unique
        · exact unique
  · have same := (possible_untouched possible).containers fun request isIt =>
      isDocker ⟨request, isIt⟩
    unfold NamesUnique
    rw [same.1]
    exact unique

section Calls

variable {before after : World}

theorem shared_names {op : Op} {answer : op.Answer} (can : Shared op before answer after) :
    NamesUnique after := by
  obtain ⟨middle, changed, possible⟩ := can
  exact possible_names (where_possible possible) changed.names

theorem shared_cron {op : Op} {answer : op.Answer} (noCron : NoCron op)
    (can : Shared op before answer after) : CronFrom before after := by
  obtain ⟨middle, changed, possible⟩ := can
  exact changed.cron.trans (possible_cron noCron (where_possible possible))

theorem shared_remove {name : String} {answer : Except String Unit}
    (can : Shared (.docker (.removeContainer name)) before answer after) :
    CronFrom before after ∧ Gone name after := by
  refine ⟨@shared_cron before after (.docker (.removeContainer name)) answer trivial can, ?_⟩
  obtain ⟨middle, -, fault, ⟨-, allowed⟩, result⟩ := can
  have noFault : fault = none := Option.isNone_iff_eq_none.mp allowed
  subst noFault
  have served : middle.removeContainer name = (answer, after) := result
  rcases middle.remove_container_cases name with ⟨absent, message, same⟩ | ⟨-, removed⟩
  · have unchanged : middle = after := congrArg Prod.snd (same.symm.trans served)
    rw [← unchanged]
    intro container member _ _ isName
    have present : middle.hasContainer name = true := by
      simp only [World.hasContainer, List.any_eq_true, decide_eq_true_eq]
      exact ⟨container, member, isName⟩
    rw [absent] at present
    cases present
  · rw [removed] at served
    cases served
    intro container member _ _
    simpa using (List.mem_filter.mp member).2

theorem shared_create {name : String} {appId serviceId : Uuid} {config : DockerContainerConfig}
    {answer : Except String Nat} {jobs : RunningJobs} (tracked : Tracked jobs before)
    (free : jobs.get (appId, serviceId) = none) (job : RunningCronJob)
    (named : job.containerName = name)
    (can : Shared (.docker (.createContainer name (.cron appId serviceId config))) before answer
      after) : Tracked (jobs.insert (appId, serviceId) job) after := by
  obtain ⟨middle, changed, possible⟩ := can
  have still := (tracked.from changed.cron).insert free job
  intro container member key isKey
  rcases possible_create_cron (where_possible possible) container member key isKey with
    ⟨isName, isBody⟩ | ⟨old, inOld, sameName, oldKey⟩
  · have sameKey : (appId, serviceId) = key := by
      rw [cronKey, isBody] at isKey
      exact Option.some.inj isKey
    exact ⟨job, by rw [← sameKey, Map.get_insert_same], named.trans isName.symm⟩
  · obtain ⟨found, isIt, foundName⟩ := still old inOld key oldKey
    exact ⟨found, isIt, foundName.trans sameName⟩

/-- A program that creates no cron container leaves at most those there were. -/
theorem kept_ensures {Value : Type} {program : Sys Value} (calls : program.Calls NoCron)
    (world : World) : program.Ensures Shared (fun _ after => CronFrom world after) world := by
  have keeps : ∀ op before answer after, NoCron op → CronFrom world before →
      Shared op before answer after → CronFrom world after := by
    intro op before answer after noCron reached can
    exact reached.trans (shared_cron noCron can)
  have kept := calls.always keeps (cron_from_rfl world)
  exact kept.restrict (fun _ _ _ _ can => can) fun _ _ _ => trivial

theorem quiet_ensures {Value : Type} {program : Sys Value} (calls : program.Calls Op.Quiet)
    (world : World) : program.Ensures Shared (fun _ after => CronFrom world after) world :=
  kept_ensures (calls.mono quiet_no_cron) world

theorem remove_ensures (name : String) (world : World) :
    (removeContainer name).Ensures Shared
      (fun _ after => CronFrom world after ∧ Gone name after) world := by
  unfold removeContainer
  apply always_bind.mpr
  have stops : (stopContainer name).Calls NoCron :=
    ignore_calls (@op_calls NoCron (.docker (.stopContainer name)) trivial)
  apply (kept_ensures stops world).mono
  intro _ stopped kept
  apply ignore_always.mpr
  apply always_op trivial
  intro answer after can
  have removed := shared_remove can
  exact ⟨kept.trans removed.1, removed.2⟩

end Calls

section Launching

variable {jobs : RunningJobs} {world : World} {config : DockerContainerConfig}

theorem create_container_as_ensures {appId serviceId : Uuid} (tracked : Tracked jobs world)
    (free : jobs.get (appId, serviceId) = none) (job : RunningCronJob)
    (named : job.containerName = config.id) :
    (createContainerAs (.cron appId serviceId config) config).run.Ensures Shared
      (fun _ after => Tracked (jobs.insert (appId, serviceId) job) after) world := by
  unfold createContainerAs
  have seeding : (Program.forAll (seedBindMount config.id config.image)
      (config.mounts.filter (·.seedFromImage))).Calls NoCron := by
    apply calls_for_all
    intro mount _
    exact seed_bind_mount_calls _ _ _ trivial trivial fun _ => trivial
  apply (kept_ensures seeding world).run_lift_bind
  intro _ seeded kept
  apply always_run_bind.mpr
  apply always_op trivial
  intro answer created can
  have there := shared_create (tracked.from kept) free job named can
  cases answer with
  | error message => exact there
  | ok container =>
      have connecting : (connectNetworks container config.additionalNetworks).run.Calls Op.Quiet :=
        calls_for_each _ fun network _ => external_quiet _
      apply (quiet_ensures connecting created).run_bind
      intro connected after keptToo
      cases connected with
      | error message => exact there.from keptToo
      | ok _ =>
          apply always_run_bind.mpr
          have starting : (docker (.startContainer container)).run.Calls NoCron :=
            @op_calls NoCron (.docker (.startContainer container)) trivial
          apply (kept_ensures starting after).mono
          intro started final keptLast
          cases started with
          | error message => exact (there.from keptToo).from keptLast
          | ok _ =>
              apply always_run_pure.mpr
              exact (there.from keptToo).from keptLast

def LaunchedAs (jobs : RunningJobs) (key : Key) (deploymentId : Uuid) (serviceName : String)
    (result : Except String String) (world : World) : Prop :=
  match result with
  | .ok name => Tracked (jobs.insert key ⟨name, deploymentId, serviceName⟩) world
  | .error _ => Tracked jobs world

variable {service : ContainerService} {deployment : Deployment}

theorem start_cron_container_ensures {app : App} (tracked : Tracked jobs world)
    (free : jobs.get (app.id, service.id) = none) :
    (startCronContainer app deployment service config).run.Ensures Shared
      (LaunchedAs jobs (app.id, service.id) deployment.id service.name) world := by
  unfold startCronContainer
  let job : RunningCronJob := ⟨config.id, deployment.id, service.name⟩
  apply (create_container_as_ensures tracked free job rfl).run_lift_bind
  intro created after there
  cases created with
  | error message =>
      apply (remove_ensures config.id after).run_lift_bind
      rintro _ removed ⟨kept, gone⟩
      apply always_run_throw.mpr
      exact (there.from kept).undo gone
  | ok name =>
      apply (quiet_ensures (ignore_calls (log_quiet _ _)) after).run_lift_bind
      intro _ logged kept
      apply always_run_pure.mpr
      exact there.from kept

theorem pull_cron_image_quiet {Cron : Type} (scheduler : CronJobScheduler Cron) (app : App)
    (service : ContainerService) (image : String) :
    (pullCronImage scheduler app service image).run.Calls Op.Quiet := by
  unfold pullCronImage
  split
  · apply Calls.run_bind
    · exact resolve_registry_credentials_quiet _ _ _ _
    intro credentials
    exact external_quiet _
  · exact calls_pure _

theorem launch_ensures {Cron : Type} (scheduler : CronJobScheduler Cron) {app : App}
    (shared : List (String × String)) (tracked : Tracked jobs world)
    (free : jobs.get (app.id, service.id) = none) :
    (launch scheduler app deployment service shared).run.Ensures Shared
      (LaunchedAs jobs (app.id, service.id) deployment.id service.name) world := by
  unfold launch
  apply always_run_bind.mpr
  apply always_run_mk.mpr
  apply always_pure.mpr
  cases resolveServiceImage service deployment with
  | error message => exact tracked
  | ok image =>
      unfold launchCronJob
      apply (quiet_ensures (pull_cron_image_quiet scheduler app service image) world).run_bind
      intro pulled afterPull kept
      have stillPulled := tracked.from kept
      cases pulled with
      | error message => exact stillPulled
      | ok _ =>
          apply (quiet_ensures utc_now_quiet afterPull).run_lift_bind
          intro now afterClock kept
          have stillClock := stillPulled.from kept
          apply (quiet_ensures (external_quiet (.createNetwork app.networkName)) afterClock).run_bind
          intro created afterNetwork kept
          have stillNetwork := stillClock.from kept
          cases created with
          | error message => exact stillNetwork
          | ok _ =>
              apply (quiet_ensures (build_service_mounts_quiet _ _ service) afterNetwork).run_bind
              intro mounted afterMounts kept
              have stillMounts := stillNetwork.from kept
              cases mounted with
              | error message => exact stillMounts
              | ok mounts =>
                  apply (quiet_ensures (ignore_calls (log_quiet _ _)) afterMounts).run_lift_bind
                  intro _ afterLog kept
                  exact start_cron_container_ensures (stillMounts.from kept) free

end Launching

section Jobs

variable {jobs : RunningJobs} {world : World}

theorem iteration_keys_quiet (jobs : RunningJobs) : (iterationKeys jobs).Calls Op.Quiet := by
  apply Calls.bind
  · exact op_calls trivial
  · intro order
    exact calls_pure _

theorem is_running_quiet (name : String) : (isRunning name).Calls Op.Quiet := by
  apply Calls.bind
  · exact docker_calls trivial
  · intro result
    exact calls_pure _

theorem close_job_ensures (job : RunningCronJob) (world : World) :
    (closeJob job).Ensures Shared
      (fun _ after => CronFrom world after ∧ Gone job.containerName after) world := by
  unfold closeJob
  apply (quiet_ensures (external_quiet (.containerState job.containerName)) world).bind
  intro state afterState kept
  apply always_bind.mpr
  have reading : ∀ reported, (finishedAt reported).Calls Op.Quiet := by
    intro reported
    cases reported with
    | some time => exact calls_pure _
    | none => exact utc_now_quiet.bind fun _ => calls_pure _
  apply (quiet_ensures (reading _) afterState).mono
  intro time afterTime keptTime
  apply (quiet_ensures (ignore_calls (log_quiet _ _)) afterTime).bind
  intro _ afterLog keptLog
  apply (remove_ensures job.containerName afterLog).mono
  rintro _ removed ⟨keptRemoved, gone⟩
  exact ⟨((kept.trans keptTime).trans keptLog).trans keptRemoved, gone⟩

def Finished (jobs : RunningJobs) (finished : List Key) (world : World) : Prop :=
  ∀ key ∈ finished, ∀ job, jobs.get key = some job → Gone job.containerName world

theorem Finished.from {finished : List Key} {before after : World}
    (done : Finished jobs finished before) (kept : CronFrom before after) :
    Finished jobs finished after :=
  fun key member job found => (done key member job found).from kept

theorem reconcile_job_ensures {finished : List Key} (tracked : Tracked jobs world)
    (done : Finished jobs finished world) (key : Key) :
    (reconcileJob jobs finished key).Ensures Shared
      (fun result after => Tracked jobs after ∧ Finished jobs result after) world := by
  unfold reconcileJob
  cases found : jobs.get key with
  | none =>
      apply always_pure.mpr
      exact ⟨tracked, done⟩
  | some job =>
      apply (quiet_ensures (is_running_quiet job.containerName) world).bind
      intro running asked kept
      dsimp only
      split_ifs with isRunning
      · apply always_pure.mpr
        exact ⟨tracked.from kept, done.from kept⟩
      · apply (close_job_ensures job asked).bind
        rintro _ closed ⟨keptClosed, gone⟩
        apply always_pure.mpr
        refine ⟨(tracked.from kept).from keptClosed, ?_⟩
        intro other member entry isEntry
        rcases List.mem_append.mp member with earlier | isNew
        · exact ((done.from kept).from keptClosed) other earlier entry isEntry
        · rw [List.mem_singleton.mp isNew, found] at isEntry
          rw [← Option.some.inj isEntry]
          exact gone

theorem removed_get {key other : Key} {job : RunningCronJob}
    (found : (jobs.remove key).get other = some job) : jobs.get other = some job := by
  rw [Map.get_remove] at found
  split_ifs at found
  exact found

theorem tracked_without (finished : List Key) (tracked : Tracked jobs world)
    (done : Finished jobs finished world) : Tracked (finished.foldl Map.remove jobs) world := by
  induction finished generalizing jobs with
  | nil => exact tracked
  | cons key rest ih =>
      apply ih
      · exact tracked.remove fun job found => done key List.mem_cons_self job found
      · intro other member job found
        exact done other (List.mem_cons_of_mem _ member) job (removed_get found)

theorem reconcile_ensures (tracked : Tracked jobs world) :
    (reconcileRunningJobs jobs).Ensures Shared (fun result after => Tracked result after) world := by
  unfold reconcileRunningJobs
  apply (quiet_ensures (iteration_keys_quiet jobs) world).bind
  intro keys listed kept
  apply always_bind.mpr
  apply always_fold (fun _ finished world => Tracked jobs world ∧ Finished jobs finished world)
    keys [] [] listed
  · exact ⟨tracked.from kept, by simp [Finished]⟩
  · rintro finished after ⟨still, done⟩
    apply always_pure.mpr
    exact tracked_without finished still done
  · rintro _ key _ finished reached _ ⟨still, done⟩
    exact reconcile_job_ensures still done key

theorem remove_orphan_ensures (tracked : Tracked jobs world) (key : Key) :
    (removeOrphan jobs key).Ensures Shared (fun result after => Tracked result after) world := by
  unfold removeOrphan
  cases found : jobs.get key with
  | none =>
      apply always_pure.mpr
      exact tracked
  | some job =>
      apply (remove_ensures job.containerName world).bind
      rintro _ removed ⟨kept, gone⟩
      apply always_pure.mpr
      apply (tracked.from kept).remove
      intro other isOther
      rw [found] at isOther
      rw [← Option.some.inj isOther]
      exact gone

end Jobs

section OnePass

variable {Cron : Type} {scheduler : CronJobScheduler Cron} {pass : Pass} {world : World} {app : App}
  {deployment : Deployment} {shared : List (String × String)} {service : ContainerService}

theorem run_due_job_tracked {schedule : String} (tracked : Tracked pass.runningJobs world)
    (free : pass.runningJobs.get (app.id, service.id) = none) :
    (runDueJob scheduler app deployment shared service schedule pass).Ensures Shared
      (fun result after => Tracked result.runningJobs after) world := by
  unfold runDueJob
  apply (quiet_ensures utc_now_quiet world).bind
  intro now read kept
  cases nextScheduleState scheduler schedule deployment.id now with
  | error message =>
      apply always_pure.mpr
      exact tracked.from kept
  | ok next =>
      dsimp only
      unfold attemptLaunch
      apply (launch_ensures scheduler shared (tracked.from kept) free).bind
      intro launched after outcome
      cases launched with
      | ok name =>
          apply always_pure.mpr
          exact outcome
      | error message =>
          apply (quiet_ensures (ignore_calls (log_quiet _ _)) after).bind
          intro _ logged keptLog
          apply always_pure.mpr
          exact Tracked.from outcome keptLog

theorem run_if_due_tracked {schedule : String} (tracked : Tracked pass.runningJobs world) :
    (runIfDue scheduler app deployment shared service schedule pass).Ensures Shared
      (fun result after => Tracked result.runningJobs after) world := by
  unfold runIfDue
  cases pass.schedules.get (app.id, service.id) with
  | none =>
      apply always_pure.mpr
      exact tracked
  | some state =>
      dsimp only
      split_ifs with running
      · apply always_pure.mpr
        exact tracked
      · apply (quiet_ensures utc_now_quiet world).bind
        intro now read kept
        dsimp only
        split_ifs with early
        · apply always_pure.mpr
          exact tracked.from kept
        · apply run_due_job_tracked (tracked.from kept)
          simpa [Map.contains] using running

theorem poll_service_tracked (tracked : Tracked pass.runningJobs world) (service : ContainerService) :
    (pollService scheduler app deployment shared pass service).Ensures Shared
      (fun result after => Tracked result.runningJobs after) world := by
  unfold pollService
  cases service.schedule with
  | none =>
      apply always_pure.mpr
      exact tracked
  | some schedule =>
      have building : (ensureState scheduler pass.schedules (app.id, service.id) schedule
          deployment.id).Calls Op.Quiet := by
        apply calls_ite
        · exact utc_now_quiet.bind fun _ => calls_pure _
        · exact calls_pure _
      apply (quiet_ensures building world).bind
      intro schedules built kept
      exact run_if_due_tracked (tracked.from kept)

theorem poll_app_tracked (tracked : Tracked pass.runningJobs world) (app : App) :
    (pollApp scheduler pass app).Ensures Shared
      (fun result after => Tracked result.2.runningJobs after) world := by
  unfold pollApp
  have resolving : (resolveRunningDeployment app.id).run.Calls Op.Quiet := by
    apply Calls.run_bind
    · exact list_deployments_quiet app.id
    · intro deployments
      exact calls_pure _
  apply (quiet_ensures resolving world).bind
  intro resolved read kept
  have still := tracked.from kept
  rcases resolved with message | none | deployment
  · apply always_pure.mpr
    exact still
  · apply always_pure.mpr
    exact still
  · apply always_bind.mpr
    apply always_fold (fun _ (pass : Pass) world => Tracked pass.runningJobs world) _ [] _ _ still
    · intro polled after reached
      apply always_pure.mpr
      exact reached
    · intro _ service _ polled state _ reached
      exact poll_service_tracked reached service

theorem forget_inactive_tracked (tracked : Tracked pass.runningJobs world) :
    (forgetInactive pass).Ensures Shared
      (fun result after => Tracked result.runningJobs after) world := by
  unfold forgetInactive
  apply (quiet_ensures (iteration_keys_quiet _) world).bind
  intro keys listed kept
  apply always_bind.mpr
  apply always_fold (fun _ jobs world => Tracked jobs world) _ [] _ _ (tracked.from kept)
  · intro jobs after reached
    apply always_pure.mpr
    exact reached
  · intro _ key _ jobs state _ reached
    exact remove_orphan_ensures reached key

theorem list_apps_quiet : Store.listApps.run.Calls Op.Quiet := by
  apply Calls.run_bind
  · exact query_quiet (by simp)
  · intro rows
    induction rows with
    | nil => exact calls_pure _
    | cons row rest ih =>
        apply Calls.run_bind
        · exact query_quiet (by simp)
        intro services
        exact Calls.run_return ih

theorem poll_apps_tracked (tracked : Tracked pass.runningJobs world) :
    (pollApps scheduler pass).Ensures Shared
      (fun result after => Tracked result.2.runningJobs after) world := by
  unfold pollApps
  apply (quiet_ensures list_apps_quiet world).bind
  intro listed read kept
  have still := tracked.from kept
  cases listed with
  | error message =>
      apply always_pure.mpr
      exact still
  | ok apps =>
      apply always_bind.mpr
      apply always_iterate (fun _ (pass : Pass) world => Tracked pass.runningJobs world) _ [] _ _
        still
      · intro polled after reached
        apply (forget_inactive_tracked reached).bind
        intro final last held
        apply always_pure.mpr
        exact held
      · intro _ app _ polled state _ reached
        apply (poll_app_tracked reached app).mono
        rintro ⟨result, next⟩ after held
        cases result with
        | ok _ => exact held
        | error message =>
            apply always_pure.mpr
            exact held

/-- A pass leaves every cron container tracked, however it ends. -/
theorem poll_once_tracked {tables : Tables} (tracked : Tracked tables.runningJobs world) :
    (pollOnce scheduler tables).Ensures Shared
      (fun result after => Tracked result.2.runningJobs after) world := by
  unfold pollOnce
  apply (reconcile_ensures tracked).bind
  intro jobs reconciled held
  exact poll_apps_tracked held

end OnePass

/-- The world and the maps between two passes. A restart may cut a pass off at any
call, also before the first, and starts with empty maps; `mayRestart` is the
condition under which it happens. -/
inductive Lives {Cron : Type} (scheduler : CronJobScheduler Cron) (mayRestart : World → Prop) :
    World → Tables → Prop where
  | start {world : World} (names : NamesUnique world) (none : NoCronContainers world) :
      Lives scheduler mayRestart world Tables.empty
  | change {before after : World} {tables : Tables}
      (earlier : Lives scheduler mayRestart before tables) (changed : Changed before after) :
      Lives scheduler mayRestart after tables
  | poll {before after : World} {tables : Tables} {result : Except String Unit} {pass : Pass}
      (earlier : Lives scheduler mayRestart before tables)
      (run : Runs Shared (pollOnce scheduler tables) before (result, pass) after) :
      Lives scheduler mayRestart after pass.tables
  | restart {before after : World} {tables : Tables} {left : Sys (Except String Unit × Pass)}
      (earlier : Lives scheduler mayRestart before tables)
      (cut : Reaches Shared (pollOnce scheduler tables) before left after)
      (permitted : mayRestart after) : Lives scheduler mayRestart after Tables.empty

section Runs

variable {Cron : Type} {scheduler : CronJobScheduler Cron} {world after : World} {tables : Tables}
  {mayRestart : World → Prop}

theorem lives_names (lives : Lives scheduler mayRestart world tables) : NamesUnique world := by
  induction lives with
  | start names none => exact names
  | change earlier changed ih => exact changed.names
  | poll earlier run ih => exact run.invariant (fun _ _ _ _ _ can => shared_names can) ih
  | restart earlier cut permitted ih =>
      exact cut.invariant (fun _ _ _ _ _ can => shared_names can) ih

theorem lives_tracked (lives : Lives scheduler NoCronContainers world tables) :
    Tracked tables.runningJobs world := by
  induction lives with
  | start names none => exact tracked_of_none none _
  | change earlier changed ih => exact ih.from changed.cron
  | poll earlier run ih => exact (poll_once_tracked ih).runs run
  | restart earlier cut permitted ih => exact tracked_of_none permitted _

/-- In a run without a restart while a cron container exists, every completed pass
leaves each cron container tracked and at most one for each app and service. -/
theorem cron_containers_tracked {Cron : Type} (scheduler : CronJobScheduler Cron) (world after : World)
    (tables : Tables) (lives : Lives scheduler NoCronContainers world tables)
    (result : Except String Unit) (pass : Pass)
    (run : Runs Shared (pollOnce scheduler tables) world (result, pass) after) :
    Tracked pass.tables.runningJobs after ∧ AtMostOne after := by
  have next : Lives scheduler NoCronContainers after pass.tables := lives.poll run
  have tracked := lives_tracked next
  exact ⟨tracked, tracked.at_most_one (lives_names next)⟩

/-! Passes of the demo scheduler, with the world to itself. -/

theorem runs_shared {Value : Type} {program : Sys Value} {before final : World} {value : Value}
    (names : NamesUnique before) (run : Runs removing.can program before value final) :
    Runs Shared program before value final := by
  induction run with
  | pure value state => exact .pure value state
  | call possible rest ih =>
      have namesToo := possible_names (where_possible possible) names
      exact .call ⟨_, ⟨names, cron_from_rfl _⟩, possible⟩ (ih namesToo)

def passAt (time : Time) (state : World × Tables) :
    Option ((Except String Unit × Pass) × World) :=
  (pollOnce demoScheduler state.2).runChecked removing (calmAt time) state.1

def pollAt (time : Time) (state : World × Tables) : World × Tables :=
  match passAt time state with
  | some (outcome, world) => (world, outcome.2.tables)
  | none => state

theorem pass_at_runs {time : Time} {state : World × Tables} {outcome : Except String Unit × Pass}
    {final : World} (lives : Lives demoScheduler mayRestart state.1 state.2)
    (made : passAt time state = some (outcome, final)) :
    Runs Shared (pollOnce demoScheduler state.2) state.1 (outcome.1, outcome.2) final :=
  runs_shared (lives_names lives) (Runs.of_checked made)

theorem lives_poll_at {mayRestart : World → Prop} {state : World × Tables} (time : Time)
    (lives : Lives demoScheduler mayRestart state.1 state.2) :
    Lives demoScheduler mayRestart (pollAt time state).1 (pollAt time state).2 := by
  unfold pollAt
  cases made : passAt time state with
  | none => exact lives
  | some outcome => exact lives.poll (pass_at_runs lives made)

def demoStart : World × Tables := (demoCronWorld, Tables.empty)

theorem lives_demo (mayRestart : World → Prop) :
    Lives demoScheduler mayRestart demoStart.1 demoStart.2 := by
  apply Lives.start
  · exact List.nodup_nil
  · intro container member
    cases member

def restartedFrom (state : World × Tables) : World × Tables := (state.1, Tables.empty)

theorem lives_restarted {state : World × Tables}
    (lives : Lives demoScheduler mayRestart state.1 state.2) (permitted : mayRestart state.1) :
    Lives demoScheduler mayRestart (restartedFrom state).1 (restartedFrom state).2 :=
  lives.restart (.here _ _) permitted

def cronSerials (key : Key) (world : World) : List Nat :=
  (world.containers.filter fun container => cronKey container = some key).map (·.serial)

theorem cron_containers_tracked_launched : ∃ world tables result pass after,
    Lives demoScheduler NoCronContainers world tables ∧
    Runs Shared (pollOnce demoScheduler tables) world (result, pass) after ∧
    cronSerials (⟨1⟩, ⟨2⟩) after = [0] ∧
    Tracked pass.tables.runningJobs after ∧ AtMostOne after := by
  have started := lives_poll_at 0 (lives_demo NoCronContainers)
  have clean : NoCronContainers (pollAt 0 demoStart).1 := by
    unfold NoCronContainers
    decide +kernel
  have reached := lives_poll_at 30 (lives_restarted started clean)
  have made : (passAt 65 (pollAt 30 (restartedFrom (pollAt 0 demoStart)))).any
      (fun made => cronSerials (⟨1⟩, ⟨2⟩) made.2 = [0]) = true := by
    decide +kernel
  obtain ⟨⟨outcome, final⟩, isMade, launched⟩ := (Option.any_eq_true _ _).mp made
  have run := pass_at_runs reached isMade
  refine ⟨_, _, _, _, final, reached, run, of_decide_eq_true launched, ?_⟩
  exact cron_containers_tracked demoScheduler _ final _ reached _ _ run

/-- A restart while a job runs: the job's container is no longer tracked, and the next
slot launches a second one beside it. -/
theorem restart_doubles_cron_container : ∃ world tables result pass after,
    Lives demoScheduler (fun _ => True) world tables ∧
    Runs Shared (pollOnce demoScheduler tables) world (result, pass) after ∧
    ¬Tracked pass.tables.runningJobs after ∧ ¬AtMostOne after := by
  have launched := lives_poll_at 65 (lives_poll_at 0 (lives_demo fun _ => True))
  have reached := lives_poll_at 130 (lives_restarted launched trivial)
  have made : (passAt 190 (pollAt 130 (restartedFrom (pollAt 65 (pollAt 0 demoStart))))).any
    (fun made =>
      made.2.containers.map (fun container => (container.serial, cronKey container)) =
        [(0, some (⟨1⟩, ⟨2⟩)), (1, some (⟨1⟩, ⟨2⟩))]) = true := by
    decide +kernel
  obtain ⟨⟨outcome, final⟩, isMade, shown⟩ := (Option.any_eq_true _ _).mp made
  have run := pass_at_runs reached isMade
  have shape : final.containers.map (fun container => (container.serial, cronKey container)) =
      [(0, some (⟨1⟩, ⟨2⟩)), (1, some (⟨1⟩, ⟨2⟩))] := of_decide_eq_true shown
  have doubled : ¬AtMostOne final := by
    intro single
    obtain ⟨first, rest, split, isFirst, restShape⟩ := List.map_eq_cons_iff.mp shape
    obtain ⟨second, none, splitRest, isSecond, -⟩ := List.map_eq_cons_iff.mp restShape
    have inFirst : first ∈ final.containers := by simp [split]
    have inSecond : second ∈ final.containers := by simp [split, splitRest]
    have same := single first inFirst second inSecond (⟨1⟩, ⟨2⟩) (congrArg Prod.snd isFirst)
      (congrArg Prod.snd isSecond)
    rw [same] at isFirst
    have serials : (0 : Nat) = 1 := congrArg Prod.fst (isFirst.symm.trans isSecond)
    omega
  have names := lives_names (reached.poll run)
  refine ⟨_, _, _, _, final, reached, run, ?_, doubled⟩
  intro tracked
  exact doubled (tracked.at_most_one names)

end Runs

end Containr.Cron
