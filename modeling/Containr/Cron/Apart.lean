import Containr.Api.Identity
import Containr.Cron.Tracking

/-!
# One cron launch beside the containers of the others

Names that begin with `containr-cron-` are the scheduler's own: beside a launch other
tasks change what they like except the containers of these names. A launch touches
the name it forms and the name of its seed helper, and no cron container is named as
a helper is. It leaves the others alone and gets its container exactly when nobody
carries its name; two services can form one name in the same second.
-/

namespace Containr.Cron

open Containr.Effect
open Containr.Effect.Program

/-- The names the scheduler gives out. -/
def Reserved (name : String) : Prop := Text.startsWith name "containr-cron-" = true

def CronNamed (world : World) : Prop :=
  ∀ container ∈ world.containers, ∀ key, cronKey container = some key →
    ∃ app : App, ∃ service : ContainerService, ∃ time,
      key = (app.id, service.id) ∧ container.name = cronContainerName app service time

theorem cron_name_reserved (app : App) (service : ContainerService) (now : Time) :
    Reserved (cronContainerName app service now) := by
  unfold Reserved cronContainerName
  generalize Text.compactTimestamp now = second
  apply Text.starts_with_iff.mpr
  refine ⟨shortId app.id.toString ++ "-" ++ truncateName (sanitizeName service.name) 12 ++ "-" ++
    second, ?_⟩
  simp only [String.append_assoc]

theorem helper_name_other (name : String) : seedHelperName name ≠ name := by
  intro same
  have lengths := congrArg String.length same
  rw [seedHelperName, String.length_append] at lengths
  have longer : "-seed".length = 5 := rfl
  omega

theorem digit_char_ne_d : ∀ value < 10, Nat.digitChar value ≠ 'd' := by decide

theorem compact_timestamp_last (seconds : Nat) :
    (Text.compactTimestamp seconds).toList.getLast? =
      some (Nat.digitChar (seconds % 86400 % 60 % 10)) := by
  unfold Text.compactTimestamp
  generalize Text.civilFromDays (seconds / 86400) = date
  dsimp only
  rw [String.toList_append, List.getLast?_append]
  simp [Text.twoDigits]

/-- A launch's name ends with the second's last digit, a helper's with a letter. -/
theorem cron_name_no_helper (app : App) (service : ContainerService) (now : Time) (name : String) :
    cronContainerName app service now ≠ seedHelperName name := by
  intro same
  have lasts := congrArg (fun text : String => text.toList.getLast?) same
  have digit : (cronContainerName app service now).toList.getLast? =
      some (Nat.digitChar (now % 86400 % 60 % 10)) := by
    unfold cronContainerName
    rw [String.toList_append, List.getLast?_append, compact_timestamp_last]
    rfl
  have letter : (seedHelperName name).toList.getLast? = some 'd' := by
    unfold seedHelperName
    rw [String.toList_append, List.getLast?_append]
    rfl
  rw [digit, letter] at lasts
  exact digit_char_ne_d _ (Nat.mod_lt _ (by omega)) (Option.some.inj lasts)

theorem short_id_length (id : Uuid) : (shortId id.toString).toList.length = 8 := by
  rw [shortId, String.toList_ofList, uuid_take_while, head_chars_length]

def carrying (name : String) (world : World) : List (Nat × ContainerBody) :=
  (world.containers.filter fun container => container.name = name).map fun container =>
    (container.serial, container.body)

variable {world : World} {name : String}

theorem mem_carrying {serial : Nat} {body : ContainerBody} :
    (serial, body) ∈ carrying name world ↔ ∃ container ∈ world.containers,
      container.name = name ∧ container.serial = serial ∧ container.body = body := by
  unfold carrying
  constructor
  · intro member
    obtain ⟨container, kept, same⟩ := List.mem_map.mp member
    obtain ⟨inside, named⟩ := List.mem_filter.mp kept
    cases same
    exact ⟨container, inside, of_decide_eq_true named, rfl, rfl⟩
  · rintro ⟨container, inside, named, rfl, rfl⟩
    exact List.mem_map.mpr ⟨container, List.mem_filter.mpr ⟨inside, decide_eq_true named⟩, rfl⟩

theorem carrying_nil_iff : carrying name world = [] ↔ world.hasContainer name = false := by
  unfold carrying World.hasContainer
  rw [List.map_eq_nil_iff, List.filter_eq_nil_iff, List.any_eq_false]

def Leaves (name : String) : Op → Prop
  | .docker (.createContainer other _) | .docker (.removeContainer other) => other ≠ name
  | _ => True

theorem carrying_set_running (name : String) (selected : Container → Bool) (value : Bool)
    (world : World) : carrying name
      { world with containers := setRunning selected value world.containers } =
        carrying name world := by
  unfold carrying setRunning
  dsimp only
  induction world.containers with
  | nil => rfl
  | cons container rest ih =>
      have sameName : (if selected container then { container with running := value }
          else container).name = container.name := by split <;> rfl
      have sameBody : ∀ kept, kept = (if selected container then { container with running := value }
          else container) → (kept.serial, kept.body) = (container.serial, container.body) := by
        rintro kept rfl
        split <;> rfl
      rw [List.map_cons, List.filter_cons, List.filter_cons, sameName]
      by_cases named : container.name = name
      · rw [if_pos (decide_eq_true named), if_pos (decide_eq_true named), List.map_cons, List.map_cons,
          ih, sameBody _ rfl]
      · rw [if_neg (by simpa using named), if_neg (by simpa using named), ih]

variable {before after : World}

theorem possible_carrying {op : Op} {answer : op.Answer} (leaves : Leaves name op)
    (possible : Possible op before answer after) : carrying name after = carrying name before := by
  by_cases isDocker : ∃ request, op = .docker request
  · obtain ⟨request, rfl⟩ := isDocker
    cases request with
    | createContainer other body =>
        have different : other ≠ name := leaves
        rcases possible_create possible with ⟨rfl, -⟩ | ⟨-, -, rfl⟩
        · rfl
        · simp [carrying, different]
    | startContainer serial =>
        rcases possible_start possible with ⟨rfl, -⟩ | ⟨-, rfl⟩
        · rfl
        · exact carrying_set_running _ _ _ _
    | stopContainer other =>
        rcases possible_stop possible with rfl | rfl
        · rfl
        · exact carrying_set_running _ _ _ _
    | removeContainer other =>
        have different : other ≠ name := leaves
        rcases possible_remove possible with rfl | rfl
        · rfl
        · unfold carrying
          dsimp only
          rw [List.filter_filter]
          apply congrArg (List.map _)
          apply List.filter_congr
          intro container _
          by_cases named : container.name = name
          · simp [named, Ne.symm different]
          · simp [named]
    | inspectContainer other =>
        rcases possible_docker possible with served | ⟨rfl, -⟩
        · cases served
          rfl
        · rfl
    | listContainers =>
        rcases possible_docker possible with served | ⟨rfl, -⟩
        · cases served
          rfl
        · rfl
  · have same := (possible_untouched possible).containers fun request isIt =>
      isDocker ⟨request, isIt⟩
    unfold carrying
    rw [same.1]

theorem within_leaves {names : String → Prop} {rows : ServiceDeployment → Prop} (free : ¬names name)
    (op : Op) (within : op.Within names rows) : Leaves name op := by
  cases op with
  | docker request =>
      cases request with
      | createContainer other body =>
          intro same
          rw [same] at within
          exact free within
      | removeContainer other =>
          intro same
          rw [same] at within
          exact free within
      | _ => trivial
  | _ => trivial

/-- What other tasks may do between two calls of a launch. -/
structure Beside (before after : World) : Prop extends Changed before after where
  reserved : ∀ name, Reserved name → carrying name after = carrying name before

/-- The clock reads `now`. -/
def ReadsAs (now : Time) : (op : Op) → op.Answer → Prop
  | .utcNow, answer => answer = now
  | _, _ => True

/-- The calls of a launch in the second `now`, with the faults that `check` leaves. -/
def Alongside (now : Time) (check : (op : Op) → op.Choice → World → Bool) :
    Behaviour Effects World := fun op before answer after =>
  ReadsAs now op answer ∧
    ∃ middle, Beside before middle ∧ (systemWhere check).can op middle answer after

/-- Every call may fail. -/
def anyFault : (op : Op) → op.Choice → World → Bool := fun _ _ _ => true

def served : (action : External) → action.Reply → Bool
  | .pullImage _ _, reply | .createNetwork _, reply | .absolute _, reply | .createDirAll _, reply
  | .writeFile _ _, reply
  | .setPermissions _ _, reply | .removeDirAll _, reply => Except.isOk reply
  | _, _ => true

/-- Docker, the store and the files are in order. -/
def noFault : (op : Op) → op.Choice → World → Bool
  | .query _, fault, _ | .write _, fault, _ | .docker _, fault, _ => Option.isNone fault
  | .external action, reply, _ => served action reply
  | _, _, _ => true

/-- The containers of other services are the ones that were there. -/
def OthersKept (key : Key) (before after : World) : Prop :=
  ∀ container ∈ before.containers, ∀ other, cronKey container = some other → other ≠ key →
    ∃ kept ∈ after.containers, kept.name = container.name ∧ kept.serial = container.serial ∧
      kept.body = container.body

/-- The job's container exists. -/
def Own (key : Key) (name : String) (world : World) : Prop :=
  ∃ container ∈ world.containers, container.name = name ∧ cronKey container = some key

section Alone

variable {now : Time} {check : (op : Op) → op.Choice → World → Bool} {world : World}
  {before : World} {op : Op} {name : String} {after : World}

theorem alongside_carrying {answer : op.Answer} (reserved : Reserved name) (leaves : Leaves name op)
    (can : Alongside now check op before answer after) :
    carrying name after = carrying name before := by
  obtain ⟨-, middle, beside, can⟩ := can
  rw [possible_carrying leaves (where_possible can), beside.reserved name reserved]

theorem alongside_names {answer : op.Answer} (can : Alongside now check op before answer after) :
    NamesUnique after := by
  obtain ⟨-, middle, beside, can⟩ := can
  exact possible_names (where_possible can) beside.names

theorem leaves_ensures {Value : Type} {program : Sys Value} (reserved : Reserved name)
    (calls : program.Calls (Leaves name)) (world : World) : program.Ensures (Alongside now check)
      (fun _ after => carrying name after = carrying name world) world := by
  have keeps : ∀ op before answer after, Leaves name op →
      carrying name before = carrying name world → Alongside now check op before answer after →
      carrying name after = carrying name world := by
    intro op before answer after leaves same can
    rw [alongside_carrying reserved leaves can, same]
  have kept := calls.always keeps rfl
  exact kept.restrict (fun _ _ _ _ can => can) fun _ _ _ => trivial

theorem quiet_leaves (quiet : op.Quiet) (name : String) : Leaves name op :=
  within_leaves (fun absurd => absurd) op quiet

theorem quiet_apart {Value : Type} {program : Sys Value} (calls : program.Calls Op.Quiet)
    (reserved : Reserved name) (world : World) : program.Ensures (Alongside now check)
      (fun _ after => carrying name after = carrying name world) world :=
  leaves_ensures reserved (calls.mono fun _ quiet => quiet_leaves quiet name) world

theorem no_fault_docker {request : DockerCall} {answer : Except String request.Reply}
    (can : Alongside now noFault (.docker request) before answer after) :
    ∃ middle, Beside before middle ∧ request.serve middle = (answer, after) := by
  obtain ⟨-, middle, beside, fault, ⟨-, allowed⟩, result⟩ := can
  have noFault : fault = none := Option.isNone_iff_eq_none.mp allowed
  subst noFault
  exact ⟨middle, beside, result⟩

theorem seeding_leaves (config : DockerContainerConfig) :
    (Program.forAll (seedBindMount config.id config.image)
      (config.mounts.filter (·.seedFromImage))).Calls (Leaves config.id) := by
  apply calls_for_all
  intro mount _
  exact seed_bind_mount_calls _ _ _ (helper_name_other _) (helper_name_other _) fun _ => trivial

theorem start_cron_calls (app : App) (deployment : Deployment) (service : ContainerService)
    (config : DockerContainerConfig) :
    (startCronContainer app deployment service config).run.Calls
      (Op.Within (ownNames config.id) fun _ => False) := by
  unfold startCronContainer
  apply Calls.run_lift_bind
  · exact create_container_as_calls _ config
  intro created
  cases created with
  | error message =>
      apply Calls.run_lift_bind
      · exact (remove_container_calls config.id).mono
          (Op.Within.mono (fun _ => Or.inl) fun _ absurd => absurd)
      intro _
      exact calls_run_throw _
  | ok name =>
      exact Calls.run_lift_return ((ignore_calls (log_quiet _ _)).mono Op.Quiet.within)

theorem create_refused {config : DockerContainerConfig} (body : ContainerBody)
    (reserved : Reserved config.id) (taken : carrying config.id world ≠ []) :
    (createContainerAs body config).run.Ensures (Alongside now check)
      (fun created _ => ∃ message, created = .error message) world := by
  unfold createContainerAs
  apply (leaves_ensures reserved (seeding_leaves config) world).run_lift_bind
  intro _ seeded same
  apply always_run_bind.mpr
  apply always_op trivial
  intro answer after can
  obtain ⟨-, middle, beside, can⟩ := can
  rcases possible_create (where_possible can) with ⟨-, message, rfl⟩ | ⟨unused, -, -⟩
  · exact ⟨message, rfl⟩
  · have free : carrying config.id middle = [] := carrying_nil_iff.mpr unused
    rw [beside.reserved _ reserved, same] at free
    exact absurd free taken

theorem create_served {config : DockerContainerConfig} (body : ContainerBody)
    (reserved : Reserved config.id) (alone : config.additionalNetworks = [])
    (free : carrying config.id world = []) :
    (createContainerAs body config).run.Ensures (Alongside now noFault)
      (fun created after => created = .ok config.id ∧
        ∃ serial, carrying config.id after = [(serial, body)]) world := by
  unfold createContainerAs
  apply (leaves_ensures reserved (seeding_leaves config) world).run_lift_bind
  intro _ seeded same
  apply always_run_bind.mpr
  apply always_op trivial
  intro answer created can
  obtain ⟨middle, beside, created_eq⟩ := no_fault_docker can
  have unused : middle.hasContainer config.id = false := by
    rw [← carrying_nil_iff, beside.reserved _ reserved, same]
    exact free
  rcases middle.create_container_cases config.id body with ⟨inUse, -⟩ | ⟨-, creates⟩
  · rw [inUse] at unused
    cases unused
  have both : middle.createContainer config.id body = (answer, created) := created_eq
  rw [creates] at both
  cases both
  have carried : carrying config.id { middle with
      containers := middle.containers ++ [⟨middle.nextSerial, config.id, body, false⟩]
      nextSerial := middle.nextSerial + 1 } = [(middle.nextSerial, body)] := by
    have none : carrying config.id middle = [] := carrying_nil_iff.mpr unused
    unfold carrying at none ⊢
    dsimp only
    rw [List.filter_append, List.map_append, none]
    simp
  apply always_run_bind.mpr
  rw [alone]
  apply always_pure.mpr
  apply always_run_bind.mpr
  apply always_op trivial
  intro started final can
  have still : carrying config.id final = [(middle.nextSerial, body)] := by
    have leaves : Leaves config.id (.docker (.startContainer middle.nextSerial)) := trivial
    rw [alongside_carrying reserved leaves can, carried]
  obtain ⟨ready, besideToo, started_eq⟩ := no_fault_docker can
  have there : ready.containers.any (·.serial = middle.nextSerial) = true := by
    have member : (middle.nextSerial, body) ∈ carrying config.id ready := by
      rw [besideToo.reserved _ reserved, carried]
      exact List.mem_singleton_self _
    obtain ⟨container, inside, -, serial, -⟩ := mem_carrying.mp member
    exact List.any_eq_true.mpr ⟨container, inside, decide_eq_true serial⟩
  have switched : ready.switchContainer (·.serial = middle.nextSerial) true =
      (started, final) := started_eq
  unfold World.switchContainer at switched
  rw [if_pos there] at switched
  cases switched
  apply always_run_pure.mpr
  exact ⟨rfl, _, still⟩

theorem remove_served (reserved : Reserved name) (world : World) :
    (removeContainer name).Ensures (Alongside now noFault)
      (fun _ after => carrying name after = []) world := by
  unfold removeContainer
  apply always_bind.mpr
  have stopping : (stopContainer name).Calls (Leaves name) :=
    ignore_calls (@op_calls (Leaves name) (.docker (.stopContainer name)) trivial)
  apply (leaves_ensures reserved stopping world).mono
  intro _ stopped _
  apply ignore_always.mpr
  apply always_op trivial
  intro answer after can
  obtain ⟨middle, -, removed⟩ := no_fault_docker can
  have both : middle.removeContainer name = (answer, after) := removed
  rcases middle.remove_container_cases name with ⟨absent, message, same⟩ | ⟨-, removes⟩
  · have unchanged : middle = after := congrArg Prod.snd (same.symm.trans both)
    rw [← unchanged]
    exact carrying_nil_iff.mpr absent
  · rw [removes] at both
    cases both
    simp [carrying]

section Start

variable {app : App} {deployment : Deployment} {service : ContainerService}
  {config : DockerContainerConfig}

theorem start_cron_taken (reserved : Reserved config.id) (taken : carrying config.id world ≠ []) :
    (startCronContainer app deployment service config).run.Ensures (Alongside now noFault)
      (fun _ after => carrying config.id after = []) world := by
  unfold startCronContainer
  apply (create_refused _ reserved taken).run_lift_bind
  rintro created refused ⟨message, rfl⟩
  apply (remove_served reserved refused).run_lift_bind
  intro _ after gone
  exact always_run_throw.mpr gone

theorem start_cron_free (reserved : Reserved config.id) (alone : config.additionalNetworks = [])
    (free : carrying config.id world = []) :
    (startCronContainer app deployment service config).run.Ensures (Alongside now noFault)
      (fun launched after => launched = .ok config.id ∧
        ∃ serial, carrying config.id after = [(serial, .cron app.id service.id config)]) world := by
  unfold startCronContainer
  apply (create_served _ reserved alone free).run_lift_bind
  rintro created started ⟨rfl, serial, carried⟩
  apply (quiet_apart (ignore_calls (log_quiet _ _)) reserved started).run_lift_bind
  intro _ after same
  apply always_run_pure.mpr
  exact ⟨rfl, serial, same.trans carried⟩

end Start

end Alone

/-- `launch_cron_job` from the pulled image to the creation of the container. -/
def prepareCronConfig {Cron : Type} (scheduler : CronJobScheduler Cron) (app : App)
    (deployment : Deployment) (service : ContainerService) (image : String)
    (shared : List (String × String)) : Fallible DockerContainerConfig := do
  let now ← utcNow
  ExceptT.mk (external (.createNetwork app.networkName))
  let mounts ← buildServiceMounts scheduler.runtime.workDir app.id service
  ignore (Store.appendDeploymentLog deployment.id ("starting cron job " ++ service.name))
  return cronConfig app service image (cronContainerName app service now) shared mounts

/-- `launch_cron_job` once the image is there. -/
def startPulled {Cron : Type} (scheduler : CronJobScheduler Cron) (app : App)
    (deployment : Deployment) (service : ContainerService) (image : String)
    (shared : List (String × String)) : Fallible String := do
  let config ← prepareCronConfig scheduler app deployment service image shared
  startCronContainer app deployment service config

section Launch

variable {Cron : Type} {scheduler : CronJobScheduler Cron} {app : App} {deployment : Deployment}
  {service : ContainerService} {image : String} {shared : List (String × String)} {now : Time}
  {check : (op : Op) → op.Choice → World → Bool} {world : World}

theorem launch_cron_job_eq : launchCronJob scheduler app deployment service image shared =
    pullCronImage scheduler app service image >>= fun _ =>
      startPulled scheduler app deployment service image shared := by
  simp only [launchCronJob, startPulled, prepareCronConfig, LawfulMonad.bind_assoc,
    LawfulMonad.pure_bind]

/-- What the launch goes on with, when it goes on. -/
def Prepared (app : App) (service : ContainerService) (now : Time)
    (config : DockerContainerConfig) : Prop :=
  config.id = cronContainerName app service now ∧ config.additionalNetworks = []

theorem clocked_under {allowed : Op → Prop} (permitted : allowed .utcNow) :
    utcNow.Under (ReadsAs now) allowed (· = now) :=
  under_op permitted fun _ reads => reads

theorem prepare_under :
    (prepareCronConfig scheduler app deployment service image shared).run.Under (ReadsAs now)
      Op.Quiet (OnOk (Prepared app service now)) := by
  unfold prepareCronConfig
  apply under_lift_chain (clocked_under trivial)
  intro read isNow
  apply under_chain (external_quiet _).under_ok
  intro _ _
  apply under_chain (build_service_mounts_quiet _ _ service).under_ok
  intro mounts _
  apply under_lift_chain (ignore_calls (log_quiet _ _)).under
  intro _ _
  apply under_return
  rw [isNow]
  exact ⟨rfl, rfl⟩

/-- The promises about the answers that `noFault` makes. -/
def Serves : (op : Op) → op.Answer → Prop
  | .external action, reply => served action reply = true
  | _, _ => True

/-- As `build_services` accepts them: `normalize_host_path` takes absolute paths only. -/
def AbsoluteHostPaths (service : ContainerService) : Prop :=
  ∀ mount ∈ service.mounts, ∀ path, mountHostPath mount = some path →
    Path.isAbsolute path = true

/-- A step that succeeds, in front of others. -/
theorem served_chain {Value Other : Type} {program : Fallible Value}
    {continuation : Value → Fallible Other} {post : Except String Other → Prop}
    (first : program.run.Under Serves Op.Quiet fun result => result.isOk = true)
    (rest : ∀ value, (continuation value).run.Under Serves Op.Quiet post) :
    (program >>= continuation).run.Under Serves Op.Quiet post := by
  apply first.run_bind
  intro result isOk
  cases result with
  | ok value => exact rest value
  | error message => cases isOk

theorem served_lift {Value Other : Type} {program : Sys Value}
    {continuation : Value → Fallible Other} {post : Except String Other → Prop}
    (calls : program.Calls Op.Quiet)
    (rest : ∀ value, (continuation value).run.Under Serves Op.Quiet post) :
    ((liftM program : Fallible Value) >>= continuation).run.Under Serves Op.Quiet post :=
  under_run_lift_bind.mpr (calls.under.mono fun value _ => rest value)

theorem served_action (action : External) :
    (external action).Under Serves Op.Quiet fun reply => served action reply = true :=
  under_op trivial fun _ kept => kept

theorem served_return {Value : Type} (value : Value) :
    (pure value : Fallible Value).run.Under Serves Op.Quiet fun result => result.isOk = true :=
  under_pure.mpr rfl

theorem mount_source_served (mountsRoot sharedRoot : String) {mount : ServiceMount}
    (absolute : ∀ path, mountHostPath mount = some path → Path.isAbsolute path = true) :
    (mountSource mountsRoot sharedRoot mount).run.Under Serves Op.Quiet
      fun result => result.isOk = true := by
  unfold mountSource
  split
  · rename_i path found
    rw [absolute path found]
    apply served_chain
    · exact under_pure.mpr rfl
    intro _
    apply served_lift (external_quiet (.pathExists path))
    intro present
    split
    · exact served_chain (served_action (.createDirAll path)) fun _ => served_return path
    · exact served_return path
  · apply served_chain (served_action (.absolute _))
    intro source
    exact served_chain (served_action (.createDirAll source)) fun _ => served_return source

theorem bind_mounts_served (mountsRoot sharedRoot : String) (mounts : List ServiceMount)
    (absolute : ∀ mount ∈ mounts, ∀ path, mountHostPath mount = some path →
      Path.isAbsolute path = true) :
    (bindMounts mountsRoot sharedRoot mounts).run.Under Serves Op.Quiet
      fun result => result.isOk = true := by
  induction mounts with
  | nil => exact served_return []
  | cons mount rest ih =>
      unfold bindMounts
      apply served_chain
      · exact mount_source_served mountsRoot sharedRoot (absolute mount List.mem_cons_self)
      intro source
      apply served_chain
      · exact ih fun other member => absolute other (List.mem_cons_of_mem _ member)
      intro others
      exact served_return _

theorem file_mounts_served (dir : String) (index : Nat) (files : List ConfigFile) :
    (fileMounts dir index files).run.Under Serves Op.Quiet fun result => result.isOk = true := by
  induction files generalizing index with
  | nil => exact served_return []
  | cons file rest ih =>
      unfold fileMounts
      apply served_chain (served_action (.writeFile _ _))
      intro _
      apply served_chain (served_action (.setPermissions _ _))
      intro _
      apply served_chain (ih (index + 1))
      intro others
      exact served_return _

theorem config_file_mounts_served (dir : String) (service : ContainerService) :
    (configFileMounts dir service).run.Under Serves Op.Quiet fun result => result.isOk = true := by
  unfold configFileMounts
  split
  · exact served_return []
  · apply served_chain (served_action (.createDirAll dir))
    intro _
    apply served_chain (served_action (.setPermissions dir _))
    intro _
    exact file_mounts_served dir 0 service.files

theorem write_config_files_served (mountsRoot : String) (service : ContainerService) :
    (writeConfigFiles mountsRoot service).run.Under Serves Op.Quiet
      fun result => result.isOk = true := by
  unfold writeConfigFiles
  apply served_chain (served_action (.absolute _))
  intro dir
  apply (served_action (.removeDirAll dir)).run_lift_bind
  intro removed isOk
  cases removed with
  | error failed => cases isOk
  | ok _ => exact config_file_mounts_served dir service

theorem service_mounts_served (workDir : String) (appId : Uuid)
    (absolute : AbsoluteHostPaths service) :
    (buildServiceMounts workDir appId service).run.Under Serves Op.Quiet
      fun result => result.isOk = true := by
  unfold buildServiceMounts
  apply served_chain (bind_mounts_served _ _ service.mounts absolute)
  intro mounts
  apply served_chain (write_config_files_served _ service)
  intro files
  exact served_return _

theorem alongside_serves {op : Op} {before after : World} {answer : op.Answer}
    (can : Alongside now noFault op before answer after) : Serves op answer := by
  obtain ⟨-, middle, -, choice, ⟨-, allowed⟩, result⟩ := can
  cases op with
  | external action =>
      have same : choice = answer := congrArg Prod.fst result
      rw [← same]
      exact allowed
  | _ => trivial

theorem serves_ensures {Value : Type} {program : Sys Value} {post : Value → Prop}
    (under : program.Under Serves Op.Quiet post) (world : World) :
    program.Ensures (Alongside now noFault) (fun value _ => post value) world := by
  have answers : ∀ op before answer after, True → Alongside now noFault op before answer after →
      Serves op answer := fun _ _ _ _ _ can => alongside_serves can
  have held := @Under.always Effects Value Serves Op.Quiet World (Alongside now noFault)
    (fun _ => True) program post under answers (fun _ _ _ _ _ _ _ => trivial) world trivial
  have ensured := held.mono fun _ _ both => both.1
  exact ensured.restrict (fun _ _ _ _ can => can) fun _ _ _ => trivial

theorem prepare_ok (absolute : AbsoluteHostPaths service) (world : World) :
    (prepareCronConfig scheduler app deployment service image shared).run.Ensures
      (Alongside now noFault) (fun result _ => result.isOk = true) world := by
  apply serves_ensures
  unfold prepareCronConfig
  apply served_lift utc_now_quiet
  intro now
  apply served_chain (served_action (.createNetwork _))
  intro _
  apply served_chain (service_mounts_served _ _ absolute)
  intro mounts
  apply served_lift (ignore_calls (log_quiet _ _))
  intro _
  exact served_return _

/-- The configuration of a launch, and the scheduler's names as they were. -/
theorem prepare_apart (world : World) :
    (prepareCronConfig scheduler app deployment service image shared).run.Ensures
      (Alongside now check) (fun result after => OnOk (Prepared app service now) result ∧
        ∀ name, Reserved name → carrying name after = carrying name world) world := by
  have keeps : ∀ op before answer after, Op.Quiet op →
      (∀ name, Reserved name → carrying name before = carrying name world) →
      Alongside now check op before answer after →
      ∀ name, Reserved name → carrying name after = carrying name world := by
    intro op before answer after quiet same can name reserved
    rw [alongside_carrying reserved (quiet_leaves quiet name) can, same name reserved]
  have under : (prepareCronConfig scheduler app deployment service image shared).run.Under
      (ReadsAs now) Op.Quiet (OnOk (Prepared app service now)) := prepare_under
  have held := under.always (fun _ _ _ _ _ can => can.1) keeps fun _ _ => rfl
  exact held.restrict (fun _ _ _ _ can => can) fun _ _ _ => trivial

theorem start_pulled_from {post : Except String String → World → Prop}
    (absolute : AbsoluteHostPaths service)
    (started : ∀ config ready, Prepared app service now config →
      (∀ name, Reserved name → carrying name ready = carrying name world) →
      (startCronContainer app deployment service config).run.Ensures (Alongside now noFault) post
        ready) :
    (startPulled scheduler app deployment service image shared).run.Ensures
      (Alongside now noFault) post world := by
  unfold startPulled
  apply ((prepare_ok absolute world).and (prepare_apart world)).run_bind
  rintro prepared ready ⟨isOk, outcome, same⟩
  cases prepared with
  | error message => cases isOk
  | ok config => exact started config ready outcome same

theorem start_pulled_leaves {other : String} (reserved : Reserved other)
    (notName : other ≠ cronContainerName app service now)
    (notHelper : other ≠ seedHelperName (cronContainerName app service now)) (world : World) :
    (startPulled scheduler app deployment service image shared).run.Ensures (Alongside now check)
      (fun _ after => carrying other after = carrying other world) world := by
  unfold startPulled
  apply (prepare_apart world).run_bind
  rintro prepared ready ⟨outcome, same⟩
  cases prepared with
  | error message => exact same other reserved
  | ok config =>
      have leaves : (startCronContainer app deployment service config).run.Calls (Leaves other) := by
        apply (start_cron_calls app deployment service config).mono
        apply within_leaves
        rw [outcome.1]
        rintro (isName | isHelper)
        · exact notName isName
        · exact notHelper isHelper
      apply (leaves_ensures reserved leaves ready).mono
      intro _ after kept
      rw [kept, same other reserved]

theorem launch_leaves {other : String} (reserved : Reserved other)
    (notName : other ≠ cronContainerName app service now)
    (notHelper : other ≠ seedHelperName (cronContainerName app service now)) :
    (launch scheduler app deployment service shared).run.Ensures (Alongside now check)
      (fun _ after => carrying other after = carrying other world) world := by
  unfold launch
  apply always_run_bind.mpr
  apply always_run_mk.mpr
  apply always_pure.mpr
  cases resolveServiceImage service deployment with
  | error message => rfl
  | ok image =>
      dsimp only
      rw [launch_cron_job_eq]
      apply (quiet_apart (pull_cron_image_quiet scheduler app service image) reserved world).run_bind
      intro pulled afterPull kept
      cases pulled with
      | error message => exact kept
      | ok _ =>
          apply (start_pulled_leaves reserved notName notHelper afterPull).mono
          intro _ after same
          exact same.trans kept

theorem start_pulled_taken (absolute : AbsoluteHostPaths service)
    (taken : carrying (cronContainerName app service now) world ≠ []) :
    (startPulled scheduler app deployment service image shared).run.Ensures (Alongside now noFault)
      (fun _ after => carrying (cronContainerName app service now) after = []) world := by
  have reserved := cron_name_reserved app service now
  apply start_pulled_from absolute
  rintro config ready ⟨named, -⟩ same
  rw [← same _ reserved] at taken
  rw [← named] at taken reserved ⊢
  exact start_cron_taken reserved taken

theorem start_pulled_free (absolute : AbsoluteHostPaths service)
    (free : carrying (cronContainerName app service now) world = []) :
    (startPulled scheduler app deployment service image shared).run.Ensures (Alongside now noFault)
      (fun _ after => Own (app.id, service.id) (cronContainerName app service now) after) world := by
  have reserved := cron_name_reserved app service now
  apply start_pulled_from absolute
  rintro config ready ⟨named, alone⟩ same
  rw [← same _ reserved] at free
  rw [← named] at free reserved ⊢
  apply (start_cron_free reserved alone free).mono
  rintro launched after ⟨-, serial, carried⟩
  have member : (serial, ContainerBody.cron app.id service.id config) ∈
      carrying config.id after := by
    rw [carried]
    exact List.mem_singleton_self _
  obtain ⟨container, inside, isName, -, isBody⟩ := mem_carrying.mp member
  refine ⟨container, inside, isName, ?_⟩
  unfold cronKey
  rw [isBody]

end Launch

def FormsName : Op → Prop
  | .docker (.createContainer name (.cron appId serviceId _)) =>
      ∃ app : App, ∃ service : ContainerService, ∃ time,
        (appId, serviceId) = (app.id, service.id) ∧ name = cronContainerName app service time
  | _ => True

theorem no_cron_forms (op : Op) (noCron : NoCron op) : FormsName op := by
  cases op with
  | docker request =>
      cases request with
      | createContainer name body =>
          cases body with
          | cron appId serviceId config => exact noCron.elim
          | service config => trivial
          | seed image => trivial
      | _ => trivial
  | _ => trivial

variable {Value : Type} {program : Sys Value}

theorem quiet_forms (calls : program.Calls Op.Quiet) : program.Calls FormsName :=
  calls.mono fun op quiet => no_cron_forms op (quiet_no_cron op quiet)

theorem remove_forms (name : String) : (removeContainer name).Calls FormsName := by
  have stops : (docker (.stopContainer name)).run.Calls FormsName :=
    @op_calls FormsName (.docker (.stopContainer name)) trivial
  have removes : (docker (.removeContainer name)).run.Calls FormsName :=
    @op_calls FormsName (.docker (.removeContainer name)) trivial
  apply Calls.bind
  · exact ignore_calls stops
  intro _
  exact ignore_calls removes

section Forms

variable {Cron : Type} {scheduler : CronJobScheduler Cron} {app : App} {deployment : Deployment}
  {service : ContainerService} {shared : List (String × String)}

theorem start_cron_forms {config : DockerContainerConfig} {now : Time}
    (named : config.id = cronContainerName app service now) :
    (startCronContainer app deployment service config).run.Calls FormsName := by
  unfold startCronContainer createContainerAs
  apply Calls.run_lift_bind
  · apply Calls.run_lift_bind
    · apply calls_for_all
      intro mount _
      exact seed_bind_mount_calls _ _ _ trivial trivial fun _ => trivial
    intro _
    apply Calls.run_bind
    · exact op_calls ⟨app, service, now, rfl, named⟩
    intro container
    apply Calls.run_bind
    · exact quiet_forms (calls_for_each _ fun network _ => external_quiet _)
    intro _
    exact Calls.run_return (@op_calls FormsName (.docker (.startContainer container)) trivial)
  intro created
  cases created with
  | error message =>
      apply Calls.run_lift_bind
      · exact remove_forms _
      intro _
      exact calls_run_throw _
  | ok name =>
      exact Calls.run_lift_return (quiet_forms (ignore_calls (log_quiet _ _)))

theorem launch_forms : (launch scheduler app deployment service shared).run.Calls FormsName := by
  unfold launch
  apply Calls.run_bind
  · exact calls_pure _
  intro image
  unfold launchCronJob
  apply Calls.run_bind
  · exact quiet_forms (pull_cron_image_quiet scheduler app service image)
  intro _
  apply Calls.run_lift_bind
  · exact quiet_forms utc_now_quiet
  intro now
  apply Calls.run_bind
  · exact quiet_forms (external_quiet _)
  intro _
  apply Calls.run_bind
  · exact quiet_forms (build_service_mounts_quiet _ _ service)
  intro mounts
  apply Calls.run_lift_bind
  · exact quiet_forms (ignore_calls (log_quiet _ _))
  intro _
  exact start_cron_forms rfl

theorem run_due_job_forms (schedule : String) (pass : Pass) :
    (runDueJob scheduler app deployment shared service schedule pass).Calls FormsName := by
  unfold runDueJob
  apply Calls.bind
  · exact quiet_forms utc_now_quiet
  intro now
  cases nextScheduleState scheduler schedule deployment.id now with
  | error message => exact calls_pure _
  | ok next =>
      apply Calls.bind
      · exact launch_forms
      intro launched
      cases launched with
      | ok name => exact calls_pure _
      | error message =>
          apply Calls.bind
          · exact quiet_forms (ignore_calls (log_quiet _ _))
          intro _
          exact calls_pure _

theorem poll_service_forms (pass : Pass) (service : ContainerService) :
    (pollService scheduler app deployment shared pass service).Calls FormsName := by
  unfold pollService
  cases service.schedule with
  | none => exact calls_pure _
  | some schedule =>
      apply Calls.bind
      · apply calls_ite
        · exact quiet_forms (utc_now_quiet.bind fun _ => calls_pure _)
        · exact calls_pure _
      intro schedules
      unfold runIfDue
      split
      · exact calls_pure _
      · split
        · exact calls_pure _
        · apply Calls.bind
          · exact quiet_forms utc_now_quiet
          intro now
          split
          · exact calls_pure _
          · exact run_due_job_forms schedule _

theorem poll_app_forms (pass : Pass) (app : App) : (pollApp scheduler pass app).Calls FormsName := by
  unfold pollApp
  apply Calls.bind
  · apply quiet_forms
    exact Calls.run_return (list_deployments_quiet app.id)
  intro resolved
  rcases resolved with message | none | deployment
  · exact calls_pure _
  · exact calls_pure _
  · apply Calls.bind
    · apply calls_fold
      intro pass service _
      exact poll_service_forms pass service
    intro polled
    exact calls_pure _

theorem close_job_forms (job : RunningCronJob) : (closeJob job).Calls FormsName := by
  unfold closeJob
  apply Calls.bind
  · exact quiet_forms (external_quiet _)
  intro state
  apply Calls.bind
  · apply quiet_forms
    unfold finishedAt
    split
    · exact calls_pure _
    · exact utc_now_quiet.bind fun _ => calls_pure _
  intro time
  apply Calls.bind
  · exact quiet_forms (ignore_calls (log_quiet _ _))
  intro _
  exact remove_forms _

theorem reconcile_forms (jobs : RunningJobs) : (reconcileRunningJobs jobs).Calls FormsName := by
  unfold reconcileRunningJobs
  apply Calls.bind
  · exact quiet_forms (iteration_keys_quiet jobs)
  intro keys
  apply Calls.bind
  · apply calls_fold
    intro finished key _
    unfold reconcileJob
    split
    · exact calls_pure _
    · apply Calls.bind
      · exact quiet_forms (is_running_quiet _)
      intro running
      split
      · exact calls_pure _
      · exact (close_job_forms _).bind fun _ => calls_pure _
  intro finished
  exact calls_pure _

theorem forget_inactive_forms (pass : Pass) : (forgetInactive pass).Calls FormsName := by
  unfold forgetInactive
  apply Calls.bind
  · exact quiet_forms (iteration_keys_quiet _)
  intro keys
  apply Calls.bind
  · apply calls_fold
    intro jobs key _
    unfold removeOrphan
    split
    · exact calls_pure _
    · exact (remove_forms _).bind fun _ => calls_pure _
  intro jobs
  exact calls_pure _

theorem poll_once_forms (tables : Tables) : (pollOnce scheduler tables).Calls FormsName := by
  unfold pollOnce
  apply Calls.bind
  · exact reconcile_forms tables.runningJobs
  intro jobs
  unfold pollApps
  apply Calls.bind
  · exact quiet_forms list_apps_quiet
  intro listed
  cases listed with
  | error message => exact calls_pure _
  | ok apps =>
      apply Calls.bind
      · apply calls_iterate
        intro pass app _
        exact poll_app_forms pass app
      intro polled
      split
      · exact calls_pure _
      · exact (forget_inactive_forms _).bind fun _ => calls_pure _

end Forms

theorem CronNamed.from (named : CronNamed before) (kept : CronFrom before after) :
    CronNamed after := by
  intro container member key isKey
  obtain ⟨old, inOld, sameName, oldKey⟩ := kept container member key isKey
  obtain ⟨app, service, time, isIt, oldName⟩ := named old inOld key oldKey
  exact ⟨app, service, time, isIt, sameName.symm.trans oldName⟩

theorem shared_named {op : Op} {answer : op.Answer} (forms : FormsName op)
    (named : CronNamed before) (can : Shared op before answer after) : CronNamed after := by
  by_cases creates : NoCron op
  · exact named.from (shared_cron creates can)
  · obtain ⟨middle, changed, can⟩ := can
    have namedMiddle := named.from changed.cron
    cases op with
    | docker request =>
        cases request with
        | createContainer name body =>
            intro container member key isKey
            rcases possible_create_cron (where_possible can) container member key isKey with
              ⟨isName, isBody⟩ | ⟨old, inOld, sameName, oldKey⟩
            · cases body with
              | cron appId serviceId config =>
                  obtain ⟨app, service, time, isIt, formed⟩ := forms
                  rw [cronKey, isBody] at isKey
                  have sameKey : (appId, serviceId) = key := Option.some.inj isKey
                  exact ⟨app, service, time, sameKey.symm.trans isIt, isName.trans formed⟩
              | service config => exact absurd trivial creates
              | seed image => exact absurd trivial creates
            · obtain ⟨app, service, time, isIt, oldName⟩ := namedMiddle old inOld key oldKey
              exact ⟨app, service, time, isIt, sameName.symm.trans oldName⟩
        | _ => exact absurd trivial creates
    | _ => exact absurd trivial creates

/-- However a process has lived, the cron containers carry names formed for them. -/
theorem lives_cron_named {Cron : Type} {scheduler : CronJobScheduler Cron}
    {mayRestart : World → Prop} {tables : Tables} (lives : Lives scheduler mayRestart world tables)
    : CronNamed world := by
  have keeps : ∀ op before answer after, FormsName op → CronNamed before →
      Shared op before answer after → CronNamed after :=
    fun _ _ _ _ forms named can => shared_named forms named can
  induction lives with
  | start names none =>
      intro container member key isKey
      rw [none container member] at isKey
      cases isKey
  | change earlier changed ih => exact ih.from changed.cron
  | poll earlier run ih => exact ((poll_once_forms _).always keeps ih).runs run
  | restart earlier cut permitted ih => exact (poll_once_forms _).reaches keeps cut ih

theorem poll_cron_named {Cron : Type} {scheduler : CronJobScheduler Cron}
    {mayRestart : World → Prop} {start : World} {tables : Tables}
    {left : Sys (Except String Unit × Pass)} (lives : Lives scheduler mayRestart world tables)
    (polling : Reaches Shared (pollOnce scheduler tables) world left start) : CronNamed start :=
  (poll_once_forms tables).reaches (fun _ _ _ _ forms named can => shared_named forms named can)
    polling (lives_cron_named lives)

section Isolation

variable {app : App} {service : ContainerService} {now : Time} {start finish : World}

/-- With the name free, the cron containers of everybody are among the names left alone. -/
theorem others_kept (named : CronNamed start)
    (free : start.hasContainer (cronContainerName app service now) = false)
    (leaves : ∀ other, Reserved other → other ≠ cronContainerName app service now →
      other ≠ seedHelperName (cronContainerName app service now) →
      carrying other finish = carrying other start) (key : Key) : OthersKept key start finish := by
  intro container inside other isKey _
  obtain ⟨owner, ownService, time, -, isName⟩ := named container inside other isKey
  have reserved : Reserved container.name := by
    rw [isName]
    exact cron_name_reserved owner ownService time
  have notName : container.name ≠ cronContainerName app service now := by
    intro same
    have carried : carrying container.name start = [] := by
      rw [same]
      exact carrying_nil_iff.mpr free
    have member : (container.serial, container.body) ∈ carrying container.name start :=
      mem_carrying.mpr ⟨container, inside, rfl, rfl, rfl⟩
    rw [carried] at member
    cases member
  have notHelper : container.name ≠ seedHelperName (cronContainerName app service now) := by
    rw [isName]
    exact cron_name_no_helper owner ownService time _
  have member : (container.serial, container.body) ∈ carrying container.name finish := by
    rw [leaves _ reserved notName notHelper]
    exact mem_carrying.mpr ⟨container, inside, rfl, rfl, rfl⟩
  obtain ⟨kept, there, sameName, sameSerial, sameBody⟩ := mem_carrying.mp member
  exact ⟨kept, there, sameName, sameSerial, sameBody⟩

theorem not_own_of_gone {key : Key} {name : String} {world : World}
    (gone : carrying name world = []) : ¬Own key name world := by
  rintro ⟨container, inside, named, -⟩
  have member : (container.serial, container.body) ∈ carrying name world :=
    mem_carrying.mpr ⟨container, inside, named, rfl, rfl⟩
  rw [gone] at member
  cases member

end Isolation

/-- A launch at any point of any poll: whatever fails, it spares the containers of the
other services when its name is free, and once its image is there it spares them and
gets its own container exactly then. -/
theorem cron_launch_apart_iff {Cron : Type} (scheduler : CronJobScheduler Cron)
    (mayRestart : World → Prop) (world start : World) (tables : Tables)
    (lives : Lives scheduler mayRestart world tables) (left : Sys (Except String Unit × Pass))
    (polling : Reaches Shared (pollOnce scheduler tables) world left start) (app : App)
    (deployment : Deployment) (service : ContainerService) (shared : List (String × String))
    (now : Time) :
    (∀ launched finish, Runs (Alongside now anyFault)
        (launch scheduler app deployment service shared).run start launched finish →
      start.hasContainer (cronContainerName app service now) = false →
      OthersKept (app.id, service.id) start finish) ∧
    ∀ image pulled launched finish, resolveServiceImage service deployment = .ok image →
      AbsoluteHostPaths service →
      Runs (Alongside now anyFault) (pullCronImage scheduler app service image).run start (.ok ())
        pulled →
      Runs (Alongside now noFault)
        (startPulled scheduler app deployment service image shared).run pulled launched finish →
      ((OthersKept (app.id, service.id) start finish ∧
          Own (app.id, service.id) (cronContainerName app service now) finish) ↔
        start.hasContainer (cronContainerName app service now) = false) := by
  have named := poll_cron_named lives polling
  have reserved := cron_name_reserved app service now
  constructor
  · intro launched finish run free
    exact others_kept named free
      (fun other isReserved notName notHelper =>
        (launch_leaves isReserved notName notHelper).runs run) _
  · intro image pulled launched finish _ absolute pull run
    have kept : ∀ other, Reserved other → carrying other pulled = carrying other start :=
      fun other isReserved => (quiet_apart (pull_cron_image_quiet scheduler app service image)
        isReserved start).runs pull
    constructor
    · rintro ⟨-, own⟩
      by_contra taken
      have carried : carrying (cronContainerName app service now) pulled ≠ [] := by
        rw [kept _ reserved]
        intro none
        exact taken (carrying_nil_iff.mp none)
      exact not_own_of_gone ((start_pulled_taken absolute carried).runs run) own
    · intro free
      have unused : carrying (cronContainerName app service now) pulled = [] := by
        rw [kept _ reserved]
        exact carrying_nil_iff.mpr free
      refine ⟨?_, (start_pulled_free absolute unused).runs run⟩
      apply others_kept named free
      intro other isReserved notName notHelper
      rw [← kept other isReserved]
      exact (start_pulled_leaves isReserved notName notHelper pulled).runs run

/-- The choices of a run in the second `now`. -/
def inSecond (now : Time) (check : (op : Op) → op.Choice → World → Bool) (op : Op)
    (choice : op.Choice) (world : World) : Bool :=
  check op choice world && match op, choice with
    | .utcNow, (time : Time) => decide (time = now)
    | _, _ => true

theorem runs_alongside {now : Time} {check : (op : Op) → op.Choice → World → Bool} {final : World}
    {value : Value} (names : NamesUnique before)
    (run : Runs (systemWhere (inSecond now check)).can program before value final) :
    Runs (Alongside now check) program before value final := by
  induction run with
  | pure value state => exact .pure value state
  | @call op next before middle final answer value possible rest ih =>
      have namesToo := possible_names (where_possible possible) names
      obtain ⟨choice, ⟨admitted, allowed⟩, result⟩ := possible
      obtain ⟨checked, clocked⟩ := Bool.and_eq_true _ _ |>.mp allowed
      have reads : ReadsAs now op answer := by
        cases op with
        | utcNow =>
            have isNow : choice = now := @of_decide_eq_true _ (Nat.decEq choice now) clocked
            have same : choice = answer := congrArg Prod.fst result
            exact same.symm.trans isNow
        | _ => trivial
      refine .call ⟨reads, before, ?_, choice, ⟨admitted, checked⟩, result⟩ (ih namesToo)
      exact ⟨⟨names, cron_from_rfl _⟩, fun _ _ => rfl⟩

/-- A run without faults in the second `now`. -/
def inOrder {Value : Type} (program : Sys Value) (now : Time) (world : World) :
    Option (Value × World) :=
  program.runChecked (systemWhere (inSecond now noFault)) (calmAt now) world

theorem in_order_runs {now : Time} {final : World} {value : Value} (names : NamesUnique before)
    (made : inOrder program now before = some (value, final)) :
    Runs (Alongside now noFault) program before value final :=
  runs_alongside names (Runs.of_checked made)

def demoCronRequests (names : List String) : List Api.ServiceRequest :=
  names.map fun name => { Api.Services.demoServiceRequest name with
    serviceType := some "cron_job"
    port := 0
    schedule := some "* * * * *" }

def demoCronServices (names : List String) : Except ApiError (List ContainerService) × World :=
  (Api.buildServices Api.Services.demoCrates ⟨1⟩ [] (demoCronRequests names) false).run.run system
    calm World.empty

def demoCronApp (services : List ContainerService) : World :=
  { demoCronWorld with db := { demoCronWorld.db with services := services } }

def demoScheduled (services : List ContainerService) : World × Tables :=
  pollAt 0 (demoCronApp services, Tables.empty)

def demoDue (services : List ContainerService) : Option ((Except String Unit × Pass) × World) :=
  inOrder (pollOnce demoScheduler (demoScheduled services).2) 65 (demoScheduled services).1

theorem demo_cron_services_run {names : List String} {services : List ContainerService}
    (accepted : (demoCronServices names).1 = .ok services) :
    Runs Possible (Api.buildServices Api.Services.demoCrates ⟨1⟩ [] (demoCronRequests names)
      false).run World.empty (.ok services) (demoCronServices names).2 := by
  have run := runs_run system calm calm_admitted (Api.buildServices Api.Services.demoCrates ⟨1⟩ []
    (demoCronRequests names) false).run World.empty
  rw [← accepted]
  exact run

theorem demo_scheduled_lives (services : List ContainerService) :
    Lives demoScheduler NoCronContainers (demoScheduled services).1 (demoScheduled services).2 := by
  have names : NamesUnique (demoCronApp services) := List.nodup_nil
  have none : NoCronContainers (demoCronApp services) := by
    intro container member
    cases member
  have started : Lives demoScheduler NoCronContainers (demoCronApp services) Tables.empty :=
    .start names none
  exact @lives_poll_at NoCronContainers (demoCronApp services, Tables.empty) 0 started

theorem image_of_configured {service : ContainerService}
    (configured : Text.blank service.image = false) (deployment : Deployment) :
    ∃ image, resolveServiceImage service deployment = .ok image := by
  unfold resolveServiceImage
  split
  · rename_i image _
    exact ⟨image, rfl⟩
  · rw [configured]
    exact ⟨service.image, rfl⟩

/-- One job runs since the second 65. -/
def demoRunning : World × Tables := pollAt 65 (pollAt 0 demoStart)

def demoMail : ContainerService := { demoCronService with id := ⟨3⟩, name := "mail" }

/-- A second job of the same second, under another name. -/
theorem cron_launch_apart_two :
    ∃ world tables app deployment service image pulled launched finish,
      Lives demoScheduler NoCronContainers world tables ∧
      world.containers.map cronKey = [some (⟨1⟩, ⟨2⟩)] ∧
      Runs (Alongside 65 anyFault) (pullCronImage demoScheduler app service image).run world (.ok ())
        pulled ∧
      Runs (Alongside 65 noFault) (startPulled demoScheduler app deployment service image []).run
        pulled launched finish ∧
      OthersKept (app.id, service.id) world finish ∧
      Own (app.id, service.id) (cronContainerName app service 65) finish := by
  have lives : Lives demoScheduler NoCronContainers demoRunning.1 demoRunning.2 :=
    lives_poll_at 65 (lives_poll_at 0 (lives_demo NoCronContainers))
  have names := lives_names lives
  have ran : ((pullCronImage demoScheduler Worker.demoApp demoMail demoMail.image).run.runChecked
      (systemWhere (inSecond 65 anyFault)) (calmAt 65) demoRunning.1).bind (fun pulled =>
        (inOrder (startPulled demoScheduler Worker.demoApp Worker.demoDeployment demoMail demoMail.image
          []).run 65 pulled.2).map fun _ => decide (pulled.1.isOk = true ∧
            demoRunning.1.containers.map cronKey = [some (⟨1⟩, ⟨2⟩)] ∧
            demoRunning.1.hasContainer (cronContainerName Worker.demoApp demoMail 65) = false)) =
      some true := by decide +kernel
  obtain ⟨⟨result, pulled⟩, isPulled, rest⟩ := Option.bind_eq_some_iff.mp ran
  obtain ⟨⟨launched, finish⟩, made, shown⟩ := Option.map_eq_some_iff.mp rest
  obtain ⟨isOk, keys, free⟩ := of_decide_eq_true shown
  have pull := runs_alongside names (Runs.of_checked isPulled)
  have ended : result = .ok () := by
    cases result with
    | error message => cases isOk
    | ok _ => rfl
  rw [ended] at pull
  have namesToo : NamesUnique pulled :=
    pull.invariant (fun _ _ _ _ _ can => alongside_names can) names
  have run := in_order_runs namesToo made
  have resolved : resolveServiceImage demoMail Worker.demoDeployment = .ok demoMail.image := by
    decide +kernel
  have absolute : AbsoluteHostPaths demoMail := by
    intro mount member
    cases member
  have apart := (cron_launch_apart_iff demoScheduler NoCronContainers _ _ _ lives _ (.here _ _)
    Worker.demoApp Worker.demoDeployment demoMail [] 65).2 demoMail.image pulled launched finish
      resolved
    absolute pull run
  exact ⟨_, _, _, _, demoMail, _, pulled, launched, finish, lives, keys, pull, run, apart.mpr free⟩

/-- `report a` and `report-a` are accepted as two cron services of one app. Both are due
in one second: the second launch finds the name taken and removes the container of the
first, and neither job has a container after the pass. -/
theorem cron_jobs_collide :
    ∃ services accepted world tables pass after,
      Runs Possible (Api.buildServices Api.Services.demoCrates ⟨1⟩ []
        (demoCronRequests ["report a", "report-a"]) false).run World.empty (.ok services) accepted ∧
      world.db.services = services ∧ Lives demoScheduler NoCronContainers world tables ∧
      Runs (Alongside 65 noFault) (pollOnce demoScheduler tables) world (.ok (), pass) after ∧
      (∀ service ∈ services, ∀ deployment,
        ∃ image, resolveServiceImage service deployment = .ok image) ∧
      pass.attempts.map (fun attempt => (attempt.key, attempt.tracked)) =
        [((⟨1⟩, ⟨1⟩), []), ((⟨1⟩, ⟨2⟩), [(⟨1⟩, ⟨1⟩)])] ∧
      after.containers = [] := by
  have ran : ((demoCronServices ["report a", "report-a"]).1.toOption.bind fun services =>
      (demoDue services).map fun made =>
        decide ((demoScheduled services).1.db.services = services ∧
          (demoScheduled services).1.containers = [] ∧ made.1.1.isOk = true ∧
          (∀ service ∈ services, Text.blank service.image = false) ∧
          made.1.2.attempts.map (fun attempt => (attempt.key, attempt.tracked)) =
            [((⟨1⟩, ⟨1⟩), []), ((⟨1⟩, ⟨2⟩), [(⟨1⟩, ⟨1⟩)])] ∧
          made.2.containers = [])) = some true := by decide +kernel
  obtain ⟨services, isServices, rest⟩ := Option.bind_eq_some_iff.mp ran
  obtain ⟨⟨⟨result, pass⟩, after⟩, made, shown⟩ := Option.map_eq_some_iff.mp rest
  obtain ⟨stored, empty, isOk, images, attempts, gone⟩ := of_decide_eq_true shown
  have ended : result = .ok () := by
    cases result with
    | error message => cases isOk
    | ok _ => rfl
  have scheduled := demo_scheduled_lives services
  have run := in_order_runs (lives_names scheduled) made
  rw [ended] at run
  refine ⟨services, _, _, _, pass, after, demo_cron_services_run (ok_of_to_option isServices), stored,
    scheduled, run,
    ?_, attempts, gone⟩
  intro service member deployment
  exact image_of_configured (images service member) deployment

end Containr.Cron
