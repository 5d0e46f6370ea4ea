import Containr.Rollout.Loop

/-!
# A failed start-first rollout

`deploy_services` removes what a failed rollout created and marks its records
failed. Under the start-first strategy and without host ports nothing else was
touched before, so the containers are those from before the call.
-/

namespace Containr.Rollout

open Containr.Effect Containr.Effect.Program Containr.Worker

/-- The reads that are only made before the last replica runs. -/
def early : Query → Bool
  | .registriesByOwner _ | .deploymentsByApp _ => true
  | _ => false

/-- The choices of an environment in which reading and saving the records of a
finished rollout works, and so do removals. Everything else may fail. -/
def steadyChoice : (op : Op) → op.Choice → World → Bool
  | .query wanted, fault, _ => early wanted || Option.isNone fault
  | .write (.saveApp app), fault, world => Option.isNone fault && (world.db.saveApp app).isSome
  | .write (.saveDeployment deployment), fault, world =>
      Option.isNone fault && (world.db.saveDeployment deployment).isSome
  | .write _, fault, _ | .docker (.removeContainer _), fault, _ => Option.isNone fault
  | _, _, _ => true

abbrev steady : Machine Effects World := systemWhere steadyChoice

variable {before after : World}

theorem steady_refused {row : ServiceDeployment} {message : String}
    (can : steady.can (.write (.saveServiceDeployment row)) before (.error message) after) :
    before.db.saveServiceDeployment row = none := by
  obtain ⟨fault, ⟨-, allowed⟩, result⟩ := can
  have noFault : fault = none := Option.isNone_iff_eq_none.mp allowed
  subst noFault
  cases applied : before.db.saveServiceDeployment row with
  | none => rfl
  | some db =>
      have accepted : (Write.saveServiceDeployment row).apply before.db = some db := applied
      have executed := (exec_write_applied accepted).symm.trans result
      cases executed

theorem steady_environment : Environment steady.can :=
  environment_where fun _ _ _ allowed => Option.isNone_iff_eq_none.mp allowed

variable {world : World}

theorem remove_all_holds {can : Behaviour Effects World} (environment : Environment can)
    {containers : List Container} {base : Nat} (names : List String)
    (held : Held containers base world) : (forAll removeContainer names).Ensures can
      (fun _ after => Held (keep names containers) base after) world := by
  apply always_for_all (fun done after => Held (keep done containers) base after) _ []
  · rw [keep_nil]
    exact held
  · exact fun _ removed => removed
  · intro before name rest state _ reached
    apply (remove_container_holds environment name reached).mono
    intro _ after removed
    have same : keep ([] ++ before ++ [name]) containers = keep (name :: ([] ++ before)) containers :=
      keep_congr (by simp [or_comm]) containers
    rw [same, ← without_keep]
    exact removed

variable {plan : Plan} {services : List ContainerService}

/-- After the removals the containers are those the rollout had left of the old. -/
theorem undo_containers {start : World} {gone names : List String} {created : List Container}
    {rollout : Rollout} (broken : Broken plan services start gone created rollout world)
    (fresh : FreshNames plan services start)
    (tracked : ∀ name, name ∈ names ↔ name ∈ rollout.newContainerIds) :
    keep names (keep gone start.containers ++ created) = keep gone start.containers := by
  have none_ : keep names created = [] := by
    apply keep_none
    intro container member
    exact (tracked _).mpr (broken.tracked container member)
  rw [keep_append, none_, List.append_nil]
  apply keep_all
  intro container member listed
  exact fresh.unused container.name (broken.new _ ((tracked _).mp listed)) container
    (List.mem_filter.mp member).1 rfl

section Records

variable {plan : Plan} {start : World} {rows : List ServiceDeployment}

structure Marking (plan : Plan) (start : World) (rows done : List ServiceDeployment)
    (world : World) : Prop where
  beside : Beside plan.deployment.id start world
  table : ∀ row ∈ world.db.serviceDeployments, row ∈ start.db.serviceDeployments ∨
    row.status = .failed ∨ ∃ written ∈ rows, written ∉ done ∧
      Database.rowKey row = Database.rowKey written ∧
      (start.db.saveServiceDeployment written).isSome = true

theorem mark_failed_step {done : List ServiceDeployment} {row : ServiceDeployment} {time : Time}
    {world : World} (owned : row.deploymentId = plan.deployment.id)
    (marking : Marking plan start rows done world) :
    (ignore (Store.saveServiceDeployment
      { row with status := .failed, finishedAt := some time })).Ensures steady.can
        (fun _ after => Marking plan start rows (done ++ [row]) after) world := by
  apply ignore_always.mpr
  apply always_op trivial
  intro answer after possible
  have accepted : (start.db.saveServiceDeployment row).isSome = true →
      (world.db.saveServiceDeployment
        { row with status := .failed, finishedAt := some time }).isSome = true := by
    intro known
    have sameKeys : (start.db.saveServiceDeployment
        { row with status := .failed, finishedAt := some time }).isSome =
          (start.db.saveServiceDeployment row).isSome := save_accepted_of_keys start.db rfl rfl
    rw [save_accepted_of_beside marking.beside, sameKeys]
    exact known
  have within : Op.Within (fun _ => False) (fun other => other.deploymentId = plan.deployment.id)
      (.write (.saveServiceDeployment
        { row with status := .failed, finishedAt := some time })) := owned
  refine ⟨marking.beside.trans (within_beside within (where_possible possible)), fun other stored => ?_⟩
  rcases possible_write (where_possible possible) with ⟨-, db, applied, rfl⟩ | ⟨same, message, rfl⟩
  · rw [Database.save_service_deployment_shape applied] at stored
    rcases mem_upsert.mp stored with rfl | ⟨inTable, otherKey⟩
    · exact Or.inr (Or.inl rfl)
    · rcases marking.table other inTable with old | failed | ⟨written, inRows, left, same, known⟩
      · exact Or.inl old
      · exact Or.inr (Or.inl failed)
      · refine Or.inr (Or.inr ⟨written, inRows, ?_, same, known⟩)
        intro inDone
        rcases List.mem_append.mp inDone with earlier | last
        · exact left earlier
        · rw [List.mem_singleton.mp last] at same
          exact otherKey same
  · have refused := steady_refused possible
    rw [same] at stored
    rcases marking.table other stored with old | failed | ⟨written, inRows, left, same, known⟩
    · exact Or.inl old
    · exact Or.inr (Or.inl failed)
    · refine Or.inr (Or.inr ⟨written, inRows, ?_, same, known⟩)
      intro inDone
      rcases List.mem_append.mp inDone with earlier | last
      · exact left earlier
      · rw [List.mem_singleton.mp last] at known
        simpa [refused] using accepted known

/-- The error path of `deploy_services`. -/
theorem undo_ensures {services : List ContainerService} {world : World} {gone : List String}
    {created : List Container} {rollout : Rollout}
    (broken : Broken plan services start gone created rollout world)
    (fresh : FreshNames plan services start) :
    (Plan.undo rollout).Ensures steady.can (fun _ after =>
      after.containers = keep gone start.containers ∧ Beside plan.deployment.id start after ∧
        ∀ row ∈ after.db.serviceDeployments,
          row ∈ start.db.serviceDeployments ∨ row.status = .failed) world := by
  unfold Plan.undo
  apply always_bind.mpr
  have drawn : (iterationOrder rollout.newContainerIds).Calls Op.Quiet := op_calls trivial
  apply (quiet_ensures steady_environment.sound drawn world).mono
  intro order begun quietly
  have held := held_of_quietly broken.held quietly
  have written := written_of_recordless broken.written quietly.recordless
  apply always_bind.mpr
  have recordless : (forAll removeContainer order.val).Ensures steady.can
      (fun _ after => Recordless begun after) begun := by
    have calls : (forAll removeContainer order.val).Calls
        (Op.Within (fun _ => True) fun _ => False) := by
      apply calls_for_all
      intro name _
      exact (remove_container_calls name).mono
        (Op.Within.mono (fun _ _ => trivial) fun _ none => none)
    exact recordless_ensures steady_environment.sound calls begun
  apply ((remove_all_holds steady_environment order.val held).and recordless).mono
  intro _ removed facts
  rw [undo_containers broken fresh fun name => order.property.mem_iff] at facts
  have written := written_of_recordless written facts.2
  apply (quiet_ensures steady_environment.sound utc_now_quiet removed).bind
  intro time stamped quietly
  have held := held_of_quietly facts.1 quietly
  have written := written_of_recordless written quietly.recordless
  have containers : (forAll (fun row => ignore (Store.saveServiceDeployment
      { row with status := .failed, finishedAt := some time })) rollout.serviceDeployments).Ensures
        steady.can (fun _ after => after.containers = stamped.containers) stamped := by
    have writes : (forAll (fun row => ignore (Store.saveServiceDeployment
        { row with status := .failed, finishedAt := some time })) rollout.serviceDeployments).Calls
          fun op => ∃ change, op = Op.write change := by
      apply calls_for_all
      intro row _
      exact ignore_calls (op_calls ⟨_, rfl⟩)
    exact writes_ensure steady_environment.sound writes stamped
  have marked : (forAll (fun row => ignore (Store.saveServiceDeployment
      { row with status := .failed, finishedAt := some time })) rollout.serviceDeployments).Ensures
        steady.can (fun _ after => Marking plan start rollout.serviceDeployments
          rollout.serviceDeployments after) stamped := by
    apply always_for_all (fun done after =>
      Marking plan start rollout.serviceDeployments done after) _ []
    · refine ⟨written.beside, fun row stored => ?_⟩
      rcases written.table row stored with old | ⟨known, inRows, same, accepted⟩
      · exact Or.inl old
      · exact Or.inr (Or.inr ⟨known, inRows, List.not_mem_nil, same, accepted⟩)
    · intro state reached
      exact reached
    · intro before row rest state split reached
      have member : row ∈ rollout.serviceDeployments := by
        rw [split]
        simp
      exact mark_failed_step (written.owned row member) reached
  apply (containers.and marked).mono
  intro _ after facts
  refine ⟨facts.1.trans held.same, facts.2.beside, fun row stored => ?_⟩
  rcases facts.2.table row stored with old | failed | ⟨written, inRows, left, -⟩
  · exact Or.inl old
  · exact Or.inr failed
  · exact absurd inRows left

end Records

def Served (appId : Uuid) : (op : Op) → op.Answer → Prop
  | .query (.app id), answer => ∃ row : Option App, answer = .ok row ∧ (id = appId → row.isSome = true)
  | .query wanted, answer => early wanted = false → ∃ row, answer = .ok row
  | .write (.saveApp _), answer | .write (.saveDeployment _), answer => answer = .ok ()
  | _, _ => True

theorem steady_saved {change : Write} {before after : World} {answer : Except String Unit}
    (accepted : (change.apply before.db).isSome = true)
    (result : Op.exec (.write change) none before = (answer, after)) : answer = .ok () := by
  obtain ⟨db, applied⟩ := Option.isSome_iff_exists.mp accepted
  have executed := (exec_write_applied applied).symm.trans result
  cases executed
  rfl

variable {appId : Uuid}

theorem steady_served {op : Op} {answer : op.Answer}
    (known : (before.db.appRow appId).isSome = true) (can : steady.can op before answer after) :
    Served appId op answer := by
  obtain ⟨choice, ⟨-, allowed⟩, result⟩ := can
  cases op with
  | query wanted =>
      have answered : early wanted = false → answer = .ok (wanted.read before.db) := by
        intro late
        have isNone : (early wanted || Option.isNone choice) = true := allowed
        rw [late, Bool.false_or] at isNone
        have noFault : choice = none := Option.isNone_iff_eq_none.mp isNone
        subst noFault
        cases result
        rfl
      cases wanted with
      | app id =>
          refine ⟨_, answered rfl, ?_⟩
          intro same
          rw [same]
          exact known
      | _ =>
          intro late
          exact ⟨_, answered late⟩
  | write change =>
      cases change with
      | saveApp app =>
          obtain ⟨isNone, accepted⟩ := Bool.and_eq_true_iff.mp allowed
          have noFault : choice = none := Option.isNone_iff_eq_none.mp isNone
          subst noFault
          exact @steady_saved (.saveApp app) before _ _ accepted result
      | saveDeployment deployment =>
          obtain ⟨isNone, accepted⟩ := Bool.and_eq_true_iff.mp allowed
          have noFault : choice = none := Option.isNone_iff_eq_none.mp isNone
          subst noFault
          exact @steady_saved (.saveDeployment deployment) before _ _ accepted result
      | _ => trivial
  | _ => trivial

theorem query_served {wanted : Query} (late : early wanted = false) :
    (Store.query wanted).run.Under (Served appId) ByWorker fun result => ∃ row, result = .ok row := by
  apply @under_op _ (.query wanted) _ _ trivial
  intro answer served
  cases wanted with
  | app id =>
      obtain ⟨row, isRow, -⟩ := served
      exact ⟨row, isRow⟩
  | _ => exact served late

theorem restore_served (snapshot : App) (isRollback : Bool) :
    (restoreIfRollback snapshot isRollback).run.Under (Served snapshot.id) ByWorker
      fun result => result = .ok () := by
  unfold restoreIfRollback
  split
  · unfold restoreAppServices Store.getApp
    apply under_run_bind.mpr
    apply under_run_bind.mpr
    apply under_op trivial
    intro answer served
    obtain ⟨row, rfl, known⟩ := served
    obtain ⟨app, rfl⟩ := Option.isSome_iff_exists.mp (known rfl)
    apply (query_served rfl).run_bind
    intro result isOk
    obtain ⟨services, rfl⟩ := isOk
    apply under_pure.mpr
    apply under_run_lift_bind.mpr
    apply under_op trivial
    intro now _
    apply under_op trivial
    intro answer saved
    exact saved
  · exact under_pure.mpr rfl

theorem get_deployment_served (id : Uuid) :
    (Store.getDeployment id).run.Under (Served appId) ByWorker
      fun result => ∃ loaded, result = .ok loaded := by
  unfold Store.getDeployment
  apply (query_served rfl).run_bind
  intro result isOk
  obtain ⟨row, rfl⟩ := isOk
  cases row with
  | none => exact under_pure.mpr ⟨_, rfl⟩
  | some row =>
      apply (query_served rfl).run_bind
      intro result isOk
      obtain ⟨rows, rfl⟩ := isOk
      exact under_pure.mpr ⟨_, rfl⟩

theorem mark_stopped_served (deployment : Deployment) :
    (markDeploymentStopped deployment).run.Under (Served appId) ByWorker
      fun result => result = .ok () := by
  unfold markDeploymentStopped
  apply under_run_lift_bind.mpr
  apply under_op trivial
  intro finishedAt _
  apply (get_deployment_served deployment.id).run_bind
  intro result isOk
  obtain ⟨loaded, rfl⟩ := isOk
  apply under_op trivial
  intro answer saved
  exact saved

/-- A rollout that has started all its containers does not fail any more. -/
theorem finish_rollout_served (plan : Plan) (rollout : Rollout) (isRollback : Bool) :
    (finishRollout plan rollout isRollback).run.Under (Served plan.app.id) ByWorker
      fun result => result = .ok () := by
  unfold finishRollout
  apply (restore_served plan.app isRollback).run_bind
  intro result isOk
  rw [isOk]
  apply (query_served rfl).run_bind
  intro result isOk
  obtain ⟨existing, rfl⟩ := isOk
  apply under_run_lift_bind.mpr
  apply under_op trivial
  intro startedAt _
  apply under_run_lift_bind.mpr
  apply under_op trivial
  intro finishedAt _
  apply under_run_bind.mpr
  apply under_op trivial
  intro answer saved
  rw [show answer = _ from saved]
  apply under_run_lift_bind.mpr
  apply ((send_proxy_refresh_quiet _ _).mono by_worker_of_within).under.mono
  intro _ _
  apply under_run_lift_bind.mpr
  apply ((sweep_old_calls _ _).mono by_worker_of_within).under.mono
  intro _ _
  apply under_for_each_ok
  intro previous _
  exact mark_stopped_served previous

theorem app_known_kept {op : Op} {answer : op.Answer} (byWorker : ByWorker op)
    (known : (before.db.appRow appId).isSome = true) (possible : Possible op before answer after) :
    (after.db.appRow appId).isSome = true := by
  rcases possible_written possible with same | ⟨change, db, rfl, applied, rfl⟩
  · rw [same]
    exact known
  · cases change with
    | saveApp app =>
        rw [Database.appRow, (Database.save_app_apps applied)]
        by_cases same : appId = app.id
        · rw [same]
          have row : lookup (·.id) app.id
              (upsert (·.id) (before.db.storedApp app) before.db.apps) =
                some (before.db.storedApp app) :=
            lookup_upsert_same (·.id) (before.db.storedApp app) before.db.apps
          rw [row]
          rfl
        · have row := lookup_upsert_other (·.id) (before.db.storedApp app) before.db.apps appId same
          rw [row]
          exact known
    | saveDeployment deployment =>
        rw [Database.appRow, (Database.save_deployment_shape applied).1]
        exact known
    | saveServiceDeployment row =>
        rw [Database.save_service_deployment_shape applied]
        exact known
    | appendDeploymentLog id line =>
        rw [Database.append_deployment_log_shape applied]
        exact known
    | deleteApp id => exact byWorker.elim
    | deleteDeployment id => exact byWorker.elim

theorem finish_rollout_ok (rollout : Rollout) (isRollback : Bool)
    (known : (world.db.appRow plan.app.id).isSome = true) :
    (finishRollout plan rollout isRollback).run.Ensures steady.can
      (fun result _ => result = .ok ()) world := by
  have served : (finishRollout plan rollout isRollback).run.Always steady.can
      (fun _ op => ByWorker op) (fun result after => result = .ok () ∧
        (after.db.appRow plan.app.id).isSome = true) world := by
    apply (finish_rollout_served plan rollout isRollback).always
    · intro op before answer after known can
      exact steady_served known can
    · intro op before answer after byWorker known can
      exact app_known_kept byWorker known (where_possible can)
    · exact known
  apply (served.restrict (fun _ _ _ _ can => can) fun _ _ _ => trivial).mono
  intro result after facts
  exact facts.1

def planAt (runtime : Runtime) (app : App) (deployment : Deployment) (networkName : String)
    (images : ServiceImages) (sharedEnv : List (String × String)) (strategy : RolloutStrategy)
    (world : World) : Plan :=
  ⟨runtime, app, deployment, networkName, images, sharedEnv, strategy,
    previousRunning world.db app.id deployment.id⟩

theorem fresh_names_perm {sorted : List ContainerService} (same : sorted.Perm services)
    (fresh : FreshNames plan services world) : FreshNames plan sorted world := by
  have isNew : ∀ name, IsNew plan sorted name → IsNew plan services name := by
    intro name new
    obtain ⟨service, member, rest⟩ := new
    exact ⟨service, same.mem_iff.mp member, rest⟩
  exact ⟨fun name new => fresh.unused name (isNew name new),
    fun name new => fresh.unrecorded name (isNew name new)⟩

section Call

variable {runtime : Runtime} {app : App} {deployment : Deployment} {networkName : String}
  {images : ServiceImages} {sharedEnv : List (String × String)} {world : World}

theorem start_first_keeps {plan : Plan} {services sorted : List ContainerService}
    (strategy : plan.strategy = .startFirst) (same : sorted.Perm services)
    (noPorts : ∀ service ∈ services, service.isCronJob = false → ∀ replica < service.replicas,
      servicePortMappings service replica = []) (name : String) :
    ¬ReplacedFirst plan sorted name := by
  intro replaced
  obtain ⟨service, member, replicated, replica, bound, first, -⟩ := replaced
  have none_ := noPorts service (same.mem_iff.mp member) replicated replica bound
  simp [replacedFirst, strategy, none_] at first

theorem sort_services_ensures {can : Behaviour Effects World}
    (sound : ∀ op before answer after, can op before answer after → Possible op before answer after)
    (services : List ContainerService) (world : World) :
    (sortServices services).run.Ensures can (fun result after => after = world ∧
      ∀ sorted, result = .ok sorted → sorted.Perm services) world := by
  unfold sortServices
  apply always_run_lift_bind.mpr
  apply op_always.mpr
  refine ⟨trivial, fun ready after possible => always_pure.mpr ⟨?_, ?_⟩⟩
  · obtain ⟨order, -, result⟩ := sound _ _ _ _ possible
    cases result
    rfl
  · intro sorted isSorted
    exact sorted_perm isSorted

structure Undone (id : Uuid) (before after : World) : Prop where
  containers : after.containers = before.containers
  beside : Beside id before after
  failed : ∀ row ∈ after.db.serviceDeployments,
    row ∈ before.db.serviceDeployments ∨ row.status = .failed

theorem undone_rfl (id : Uuid) (world : World) : Undone id world world :=
  ⟨rfl, beside_rfl id world, fun _ stored => Or.inl stored⟩

theorem deploy_services_undone {isRollback : Bool}
    (noPorts : ∀ service ∈ app.services, service.isCronJob = false → ∀ replica < service.replicas,
      servicePortMappings service replica = [])
    (known : (world.db.appRow app.id).isSome = true)
    (fresh : FreshNames (planAt runtime app deployment networkName images sharedEnv .startFirst
      world) app.services world)
    (numbered : ∀ container ∈ world.containers, container.serial < world.nextSerial) :
    (deployServices runtime app deployment networkName images sharedEnv .startFirst
      isRollback).run.Ensures steady.can (fun result after =>
        ∀ message, result = .error message → Undone deployment.id world after) world := by
  unfold deployServices
  apply (sort_services_ensures steady_environment.sound app.services world).run_bind
  intro sorted after facts
  obtain ⟨rfl, reordered⟩ := facts
  rcases sorted with message | sorted
  · exact fun _ _ => undone_rfl _ _
  have same := reordered sorted rfl
  apply (previous_running_ensures steady_environment.sound app.id deployment.id _).run_bind
  intro previous after facts
  obtain ⟨rfl, listed⟩ := facts
  rcases previous with message | previous
  · exact fun _ _ => undone_rfl _ _
  have isPrevious := listed previous rfl
  subst isPrevious
  apply (rollout_services_ensures steady_environment (fresh_names_perm same fresh)
    numbered).run_lift_bind
  intro result rolled outcome
  obtain ⟨gone, created, outcome⟩ := outcome
  rcases result with ⟨outcomeOf, rollout⟩
  cases outcomeOf with
  | error message =>
      have broken : Broken (planAt runtime app deployment networkName images sharedEnv .startFirst _)
          sorted _ gone created rollout rolled := outcome
      have nothing : gone = [] := by
        apply List.eq_nil_iff_forall_not_mem.mpr
        intro name isGone
        exact start_first_keeps rfl same noPorts name (broken.replaced name isGone)
      apply (undo_ensures broken (fresh_names_perm same fresh)).run_lift_bind
      intro _ after facts
      apply always_run_throw.mpr
      intro _ _
      rw [nothing, keep_nil] at facts
      exact ⟨facts.1, facts.2.1, facts.2.2⟩
  | ok _ =>
      have deployed : Deployed (planAt runtime app deployment networkName images sharedEnv
          .startFirst _) sorted _ (slots sorted) gone created rollout rolled := outcome
      have stillKnown : (rolled.db.appRow app.id).isSome = true := by
        rw [Database.appRow, deployed.written.beside.apps]
        exact known
      apply (finish_rollout_ok rollout isRollback stillKnown).mono
      intro result after isOk message isError
      rw [isOk] at isError
      cases isError

/-- A start-first rollout of services without host ports that fails leaves the
containers and the earlier records as they were, and its own records failed. -/
theorem failed_rollout_undone {isRollback : Bool}
    (noPorts : ∀ service ∈ app.services, service.isCronJob = false → ∀ replica < service.replicas,
      servicePortMappings service replica = [])
    (known : (world.db.appRow app.id).isSome = true)
    (fresh : FreshNames (planAt runtime app deployment networkName images sharedEnv .startFirst
      world) app.services world)
    (numbered : ∀ container ∈ world.containers, container.serial < world.nextSerial)
    {message : String} {final : World}
    (failed : Runs steady.can (deployServices runtime app deployment networkName images sharedEnv
      .startFirst isRollback).run world (.error message) final) :
    final.containers = world.containers ∧
      (final.db.deployments = world.db.deployments ∧
        ∀ other, other ≠ deployment.id → final.db.rowsOf other = world.db.rowsOf other) ∧
      ∀ row ∈ final.db.serviceDeployments,
        row ∈ world.db.serviceDeployments ∨ row.status = .failed := by
  have undone := (deploy_services_undone noPorts known fresh numbered).runs failed message rfl
  exact ⟨undone.containers, ⟨undone.beside.deployments, undone.beside.rows⟩, undone.failed⟩

end Call

/-- A rollout of two replicas; the earlier deployment runs in one container. -/
def demoReplicas : App :=
  { demoApp with services := [{ demoService with replicas := 2 }] }

def demoServing : World :=
  { demoWorld with
    db := { demoWorld.db with
      services := demoReplicas.services
      deployments := [{ demoDeployment with id := ⟨9⟩, status := .running }, demoDeployment]
      serviceDeployments := [{ ServiceDeployment.new ⟨20⟩ 0 ⟨2⟩ ⟨9⟩ 0 with
        status := .running
        containerId := some "web-old" }] }
    containers := [⟨0, "web-old", .seed "nginx:1", true⟩]
    nextSerial := 1
    issued := [⟨1⟩, ⟨2⟩, ⟨3⟩, ⟨9⟩, ⟨10⟩, ⟨20⟩] }

/-- The daemon refuses the second replica. -/
def oneCreate : system.Policy
  | .docker (.createContainer _ _), world =>
      if world.nextSerial = 1 then none else some "no space left on device"
  | op, world => calm op world

theorem fresh_names_of_each (each : ∀ service ∈ services, ∀ replica < service.replicas,
      ∀ name ∈ [plan.name service replica, seedHelperName (plan.name service replica)],
        (∀ container ∈ world.containers, container.name ≠ name) ∧
          name ∉ allOldContainers plan.previous) : FreshNames plan services world := by
  have isNew : ∀ name, IsNew plan services name →
      (∀ container ∈ world.containers, container.name ≠ name) ∧
        name ∉ allOldContainers plan.previous := by
    intro name new
    obtain ⟨service, member, -, replica, bound, own⟩ := new
    apply each service member replica bound name
    simpa [ownNames] using own
  exact ⟨fun name new => (isNew name new).1, fun name new => (isNew name new).2⟩

/-- The first replica runs already when the second is refused. -/
theorem failed_rollout_undone_second_replica :
    ∃ message final, Runs steady.can (deployServices demoRuntime demoReplicas demoDeployment
        demoReplicas.networkName [(⟨2⟩, "nginx:1")] [] .startFirst false).run demoServing
        (.error message) final ∧ final.db.serviceDeployments.length = 2 ∧
      final.containers = demoServing.containers ∧
      (final.db.deployments = demoServing.db.deployments ∧ ∀ other, other ≠ demoDeployment.id →
        final.db.rowsOf other = demoServing.db.rowsOf other) ∧
      ∀ row ∈ final.db.serviceDeployments,
        row ∈ demoServing.db.serviceDeployments ∨ row.status = .failed := by
  have runs : ((deployServices demoRuntime demoReplicas demoDeployment demoReplicas.networkName
      [(⟨2⟩, "nginx:1")] [] .startFirst false).run.runChecked steady oneCreate demoServing).map
        (fun last => (last.1.toOption, last.2.db.serviceDeployments.length)) = some (none, 2) := by
    decide +kernel
  obtain ⟨⟨result, final⟩, executed, facts⟩ := Option.map_eq_some_iff.mp runs
  obtain ⟨failed, recorded⟩ := Prod.mk.inj facts
  cases result with
  | ok value => cases failed
  | error message =>
      have run := Runs.of_checked executed
      exact ⟨message, final, run, recorded, failed_rollout_undone (by decide) (by decide)
        (fresh_names_of_each (by decide +kernel)) (by decide) run⟩

end Containr.Rollout
