import Containr.Api.CurrentDeployment
import Containr.Api.WellFormed
import Containr.Rollout.Records

/-!
# How many replicas a service has

The worker starts the stored number of replicas; the dashboard, start and scale want at
least one. After a rollout the four agree on every service but one with no replicas, which
an app may have.
-/

namespace Containr.Api.Services

open Containr.Effect Containr.Effect.Program Containr.Pushes Containr.Worker Containr.Rollout

section Idle

variable {server : Server} {runtime : Runtime} {app : App} {service : ContainerService}
  {picked : Deployment} {world : World}

def Asks : Op → Prop
  | .query _ | .external .serviceManager => True
  | _ => False

theorem asks_keeps {op : Op} {before after : World} {answer : op.Answer} (asks : Asks op)
    (possible : Possible op before answer after) : after = before := by
  cases op with
  | query wanted => exact (possible_query possible).1
  | external action =>
      obtain ⟨reply, -, executed⟩ := possible
      exact (congrArg Prod.snd executed).symm
  | _ => exact asks.elim

theorem ensure_index_runs {replica : Nat} (runs : replicaRuns picked service replica = true) :
    ∃ index, ensureServiceDeploymentIndex picked service.id replica = .pure (picked, index) ∧
      picked.serviceDeployments[index]?.any rowRuns = true := by
  unfold ensureServiceDeploymentIndex
  unfold replicaRuns at runs
  cases found : picked.serviceDeployments.findIdx? (ofReplica service.id replica) with
  | some index =>
      obtain ⟨inRange, matched, earlier⟩ := List.findIdx?_eq_some_iff_getElem.mp found
      have first : picked.serviceDeployments.find? (ofReplica service.id replica) =
          some picked.serviceDeployments[index] := by
        rw [List.find?_eq_some_iff_getElem]
        refine ⟨matched, index, inRange, rfl, fun position before => ?_⟩
        simpa using earlier position before
      rw [first] at runs
      refine ⟨index, rfl, ?_⟩
      rw [List.getElem?_eq_getElem inRange]
      exact runs
  | none =>
      have absent : picked.serviceDeployments.find? (ofReplica service.id replica) = none := by
        rw [List.find?_eq_none]
        rw [List.findIdx?_eq_none_iff] at found
        intro row member
        simpa using found row member
      rw [absent] at runs
      cases runs

variable {expects : (op : Op) → op.Answer → Prop}

theorem ensure_replica_runs (action : String) {replica : Nat}
    (runs : replicaRuns picked service replica = true) :
    (ensureReplica action runtime app service picked replica).run.Under expects Asks
      (OnOk fun found => found = (picked, false)) := by
  obtain ⟨index, same, running⟩ := ensure_index_runs runs
  unfold ensureReplica
  rw [same]
  have positioned : @Under Effects _ expects Asks (Program.pure (picked, index))
      fun found => found = (picked, index) := under_pure.mpr rfl
  apply under_lift_chain positioned
  intro found isFound
  rw [isFound]
  unfold startReplicaAt
  dsimp only
  rw [running]
  exact under_return rfl

/-- Where every replica runs, the loop of start and scale makes no call. -/
theorem ensure_replicas_run (action : String) (replicas : List Nat)
    (runs : ∀ replica ∈ replicas, replicaRuns picked service replica = true) :
    (ensureReplicas action runtime app service replicas picked).run.Under expects Asks
      (OnOk fun found => found = (picked, false)) := by
  induction replicas with
  | nil => exact under_return rfl
  | cons replica replicas ih =>
      apply under_chain (ensure_replica_runs action (runs replica List.mem_cons_self))
      intro first isFirst
      rw [isFirst]
      apply under_chain (ih fun other inRest => runs other (List.mem_cons_of_mem _ inRest))
      intro last isLast
      rw [isLast]
      exact under_return rfl

theorem stop_surplus_none {rows : List ServiceDeployment}
    (none : rows.any (surplusRow service) = false) :
    (stopSurplusRows service rows).Under expects Asks (fun kept => kept = rows) := by
  induction rows with
  | nil => exact under_pure.mpr rfl
  | cons row rows ih =>
      rw [List.any_cons, Bool.or_eq_false_iff] at none
      have own : (stopSurplusRow service row).Under expects Asks fun kept => kept = row := by
        unfold stopSurplusRow
        rw [none.1]
        exact under_pure.mpr rfl
      apply own.bind
      intro kept isKept
      apply (ih none.2).bind
      intro others areKept
      apply under_pure.mpr
      rw [isKept, areKept]

theorem manager_asks : (orInternal (ExceptT.mk (external .serviceManager))).run.Under expects Asks
    (OnOk fun _ => True) :=
  (or_internal_calls (op_calls trivial)).under_ok

theorem start_picked_asks (runs : allRun service picked = true) :
    (startPicked server runtime app service picked).run.Under expects Asks
      (OnOk fun _ => True) := by
  apply under_chain manager_asks
  intro _ _
  apply under_chain (ensure_replicas_run _ _ (all_run_iff.mp runs))
  intro found isFound
  rw [isFound]
  exact under_return trivial

theorem reconcile_picked_asks (runs : allRun service picked = true)
    (none : picked.serviceDeployments.any (surplusRow service) = false) :
    (reconcilePicked runtime app service picked).run.Under expects Asks (OnOk fun _ => True) := by
  apply under_chain manager_asks
  intro _ _
  apply under_chain (ensure_replicas_run _ _ (all_run_iff.mp runs))
  intro found isFound
  rw [isFound]
  apply under_lift_chain (stop_surplus_none none)
  intro rows _
  dsimp only
  rw [none]
  exact under_return trivial

theorem resolve_asks (app : App) (service : ContainerService) :
    (resolveAppServiceDeployment app service).run.Calls Asks := by
  unfold resolveAppServiceDeployment
  apply Calls.run_bind
  · apply or_internal_calls
    apply Calls.run_bind (op_calls trivial)
    intro rows
    exact with_service_deployments_calls (fun _ => trivial) rows
  intro deployments
  exact calls_run_pure _

/-- The operation only asks where the deployment it picks runs every replica and no more. -/
theorem perform_asks {db : Database} {change : ReplicaChange} (notStop : change ≠ .stop)
    (picks : pickDeployment (storedDeployments db app.id) service = some picked)
    (runs : allRun service picked = true)
    (none : picked.serviceDeployments.any (surplusRow service) = false) :
    (perform server runtime app service change).run.Under (Exact db) Asks
      (OnOk fun _ => True) := by
  have resolved := (@resolve_deployment_exact db app service).within (resolve_asks app service)
  cases change with
  | stop => exact absurd rfl notStop
  | start =>
      have allowed : (ensure (!service.isCronJob) (badRequest
          "cron jobs are scheduled and cannot be started manually")).run.Under (Exact db) Asks
          (OnOk fun _ => True) := by
        unfold ensure
        split
        · exact under_return trivial
        · exact under_throw _ _
      apply under_chain allowed
      intro _ _
      apply under_chain resolved
      intro found isFound
      rw [isFound, picks]
      exact start_picked_asks runs
  | scale =>
      unfold perform reconcileAppServiceReplicas
      by_cases isCron : service.isCronJob = true
      · rw [if_pos isCron]
        exact under_return trivial
      · rw [if_neg isCron]
        apply under_chain resolved
        intro found isFound
        rw [isFound, picks]
        exact reconcile_picked_asks runs none

theorem perform_unchanged {change : ReplicaChange} (notStop : change ≠ .stop)
    (picks : pickDeployment (storedDeployments world.db app.id) service = some picked)
    (runs : allRun service picked = true)
    (none : picked.serviceDeployments.any (surplusRow service) = false) :
    (perform server runtime app service change).run.Always Possible (fun _ op => Asks op)
      (fun _ after => after = world) world := by
  have answers : ∀ op before answer after, before = world → Possible op before answer after →
      Exact world.db op answer := by
    intro op before answer after same possible
    exact exact_of_possible (congrArg World.db same) possible
  have keeps : ∀ op before answer after, Asks op → before = world →
      Possible op before answer after → after = world := by
    intro op before answer after asks same possible
    exact (asks_keeps asks possible).trans same
  have always := @Under.always Effects _ _ _ World Possible (fun state => state = world) _ _
    (@perform_asks server runtime app service picked world.db change notStop picks runs none)
    answers keeps world rfl
  apply always.mono
  intro _ after facts
  exact facts.2

end Idle

section Reported

variable {deployments : List Deployment} {service : ContainerService} {current : Deployment}

theorem summarized_runs (running : ∃ deployment ∈ deployments, deployment.status = .running) :
    ∃ current ∈ deployments, summarizedDeployment deployments = some current ∧
      current.status = .running := by
  obtain ⟨deployment, member, runs⟩ := running
  have inSorted : deployment ∈ deployments.insertionSort fun left right =>
      right.createdAt ≤ left.createdAt := (List.mem_insertionSort _).mpr member
  cases first : (deployments.insertionSort fun left right =>
      right.createdAt ≤ left.createdAt).find? fun deployment => deployment.status = .running with
  | none =>
      have idle := List.find?_eq_none.mp first deployment inSorted
      simp [runs] at idle
  | some current =>
      refine ⟨current, (List.mem_insertionSort _).mp (List.mem_of_find?_eq_some first), ?_, ?_⟩
      · unfold summarizedDeployment
        dsimp only
        rw [first]
        rfl
      · simpa using List.find?_some first

/-- Where every record of the service runs and there is one for each replica, the numbers
agree unless both are zero. -/
theorem summary_agrees_iff (reported : summarizedDeployment deployments = some current)
    (running : current.status = .running) (replicated : service.isCronJob = false)
    (allRunning : ∀ row ∈ current.serviceDeployments, row.serviceId = service.id →
      row.status = .running)
    (count : current.serviceDeployments.countP (fun row => row.serviceId = service.id) =
      service.replicas) :
    ((summarizeAppServiceRuntime service deployments).status = .running ∧
      (summarizeAppServiceRuntime service deployments).runningInstances =
        (summarizeAppServiceRuntime service deployments).desiredInstances) ↔
      service.replicas ≠ 0 := by
  have rowsLength : (current.serviceDeployments.filter fun row =>
      row.serviceId = service.id).length = service.replicas := by
    rw [← count, List.countP_eq_length_filter]
  have runningLength : runningRows (current.serviceDeployments.filter fun row =>
      row.serviceId = service.id) = service.replicas := by
    have all : (current.serviceDeployments.filter fun row => row.serviceId = service.id).filter
        (fun row => row.status = .running) =
          current.serviceDeployments.filter fun row => row.serviceId = service.id := by
      rw [List.filter_eq_self]
      intro row member
      obtain ⟨inRows, ofService⟩ := List.mem_filter.mp member
      simpa using allRunning row inRows (of_decide_eq_true ofService)
    rw [runningRows, all, rowsLength]
  have wanted : desiredInstances service = max service.replicas 1 := by
    unfold desiredInstances
    rw [replicated]
    rfl
  unfold summarizeAppServiceRuntime
  rw [reported]
  dsimp only
  by_cases zero : service.replicas = 0
  · have empty : (current.serviceDeployments.filter fun row =>
        row.serviceId = service.id).isEmpty = true := by
      rw [List.isEmpty_iff, List.eq_nil_iff_length_eq_zero, rowsLength, zero]
    rw [if_pos empty, running]
    simp [unrecordedStatus, zero]
  · have desired : desiredInstances service = service.replicas := by
      rw [wanted]
      omega
    have nonempty : ¬(current.serviceDeployments.filter fun row =>
        row.serviceId = service.id).isEmpty = true := by
      intro empty
      rw [List.isEmpty_iff, List.eq_nil_iff_length_eq_zero, rowsLength] at empty
      exact zero empty
    rw [if_neg nonempty]
    have positive : 0 < service.replicas := Nat.pos_of_ne_zero zero
    simp [recordedStatus, runningLength, desired, positive, zero]

end Reported

section Finished

variable {app : App} {deployment current : Deployment} {final : World}
  {service : ContainerService} {row : ServiceDeployment}

/-- The deployment that was rolled out is the dashboard's. -/
theorem finished_current (finished : Finished app deployment final)
    (sameApp : deployment.appId = app.id) :
    ∃ current, summarizedDeployment (storedDeployments final.db app.id) = some current ∧
      current.status = .running ∧
      current.serviceDeployments = final.db.serviceDeploymentsOf deployment.id := by
  obtain ⟨stored, isStored, rowApp⟩ := finished.ofApp
  have status : stored.status = .running := by
    have known := finished.running.1
    rw [Database.statusOf, isStored] at known
    exact Option.some.inj known
  have listed : stored ∈ final.db.deploymentRowsByApp app.id := by
    apply (List.mem_insertionSort _).mpr
    rw [List.mem_filter]
    exact ⟨(lookup_eq_some_mem isStored).1, by simpa using rowApp.trans sameApp⟩
  have isListed := List.mem_map_of_mem (f := fun row : Deployment =>
    { row with serviceDeployments := final.db.serviceDeploymentsOf row.id }) listed
  obtain ⟨current, member, reported, runs⟩ := summarized_runs ⟨_, isListed, status⟩
  refine ⟨current, reported, runs, ?_⟩
  obtain ⟨found, inTable, isFound⟩ := List.mem_map.mp member
  obtain ⟨inDeployments, sameOwner⟩ := List.mem_filter.mp ((List.mem_insertionSort _).mp inTable)
  have foundRuns : found.status = .running := by
    rw [← isFound] at runs
    exact runs
  have sameId := finished.running.2 found inDeployments (of_decide_eq_true sameOwner) foundRuns
  rw [← isFound, ← sameId]

variable (finished : Finished app deployment final)
  (rows : current.serviceDeployments = final.db.serviceDeploymentsOf deployment.id)
  (distinct : (app.services.map (·.id)).Nodup) (member : service ∈ app.services)
  (replicated : service.isCronJob = false)
include finished rows distinct member replicated

theorem finished_row (stored : row ∈ current.serviceDeployments)
    (ofService : row.serviceId = service.id) :
    row.replicaIndex < service.replicas ∧ row.status = .running ∧
      row.containerId.isSome = true ∧ row.imageId.isSome = true := by
  obtain ⟨sorted, same, each⟩ := finished.rows
  rw [rows] at stored
  obtain ⟨slot, inSlots, isRow⟩ := matched_right each ((List.mem_insertionSort _).mp stored)
  obtain ⟨isService, kind⟩ := (mem_slots sorted slot).mp inSlots
  have isOwn : slot.1 = service := by
    apply List.inj_on_of_nodup_map distinct (same.mem_iff.mp isService) member
    rw [← isRow.service, ofService]
  rw [isOwn, replicated] at kind
  have bound : slot.2 < service.replicas := by simpa using kind
  refine ⟨?_, isRow.runs (by rw [isOwn]; exact replicated)⟩
  rw [isRow.replica]
  exact bound

theorem finished_count :
    current.serviceDeployments.countP (fun row => row.serviceId = service.id) =
      service.replicas := by
  obtain ⟨sorted, same, each⟩ := finished.rows
  have permuted : (final.db.serviceDeploymentsOf deployment.id).Perm
      (final.db.rowsOf deployment.id) := List.perm_insertionSort _ _
  rw [rows, permuted.countP_eq, count_rows each]
  exact count_slots ((same.map _).nodup_iff.mpr distinct) (same.mem_iff.mpr member) replicated

theorem finished_replica {replica : Nat} (bound : replica < service.replicas) :
    replicaRuns current service replica = true := by
  obtain ⟨sorted, same, each⟩ := finished.rows
  have slot : (service, replica) ∈ slots sorted :=
    (mem_slots sorted _).mpr ⟨same.mem_iff.mpr member, Or.inr ⟨replicated, bound⟩⟩
  obtain ⟨row, inRows, isRow⟩ := matched_left each slot
  have stored : row ∈ current.serviceDeployments := by
    rw [rows]
    exact (List.mem_insertionSort _).mpr inRows
  have ofSlot : ofReplica service.id replica row = true := by
    simp [ofReplica, isRow.service, isRow.replica]
  unfold replicaRuns
  cases found : current.serviceDeployments.find? (ofReplica service.id replica) with
  | none =>
      have absent := List.find?_eq_none.mp found row stored
      exact absurd ofSlot absent
  | some first =>
      have matched := List.find?_some found
      have ofService : first.serviceId = service.id :=
        of_decide_eq_true (Bool.and_eq_true_iff.mp matched).1
      obtain ⟨-, running, container, -⟩ := finished_row finished rows distinct member replicated
        (List.mem_of_find?_eq_some found) ofService
      simp [rowRuns, running, container]

end Finished

/-- The dashboard reports every wanted replica as running, and to start or scale the service
changes nothing. -/
structure CountsAgree (server : Server) (runtime : Runtime) (app : App) (world : World)
    (service : ContainerService) : Prop where
  running : (summarizeAppServiceRuntime service
    (storedDeployments world.db app.id)).status = .running
  instances : (summarizeAppServiceRuntime service
      (storedDeployments world.db app.id)).runningInstances =
    (summarizeAppServiceRuntime service (storedDeployments world.db app.id)).desiredInstances
  unchanged : ∀ change, change ≠ .stop →
    (perform server runtime app service change).run.Always Possible (fun _ op => Asks op)
      (fun _ after => after = world) world

theorem counts_agree_iff {server : Server} {runtime : Runtime} {app : App}
    {deployment : Deployment} {final : World} {service : ContainerService}
    (finished : Finished app deployment final) (sameApp : deployment.appId = app.id)
    (distinct : (app.services.map (·.id)).Nodup) (member : service ∈ app.services)
    (replicated : service.isCronJob = false) :
    CountsAgree server runtime app final service ↔ service.replicas ≠ 0 := by
  obtain ⟨current, reported, running, rows⟩ := finished_current finished sameApp
  have record {row : ServiceDeployment} := @finished_row app deployment current final service row
    finished rows distinct member replicated
  have count := finished_count finished rows distinct member replicated
  have summary := summary_agrees_iff reported running replicated
    (fun row stored ofService => (record stored ofService).2.1) count
  constructor
  · intro agrees
    exact summary.mp ⟨agrees.running, agrees.instances⟩
  · intro some
    have desired : desiredReplicas service = service.replicas := by
      unfold desiredReplicas
      omega
    have allRunning : allRun service current = true := by
      apply all_run_iff.mpr
      intro replica inRange
      rw [desired, List.mem_range] at inRange
      exact finished_replica finished rows distinct member replicated inRange
    have noSurplus : current.serviceDeployments.any (surplusRow service) = false := by
      rw [List.any_eq_false]
      intro row stored surplus
      obtain ⟨ofService, above⟩ := Bool.and_eq_true_iff.mp surplus
      have bound := (record stored (of_decide_eq_true ofService)).1
      have beyond := of_decide_eq_true above
      rw [desired] at beyond
      omega
    have hasImage : deploymentHasServiceImage current service = true := by
      have first : 0 < current.serviceDeployments.countP (fun row =>
          row.serviceId = service.id) := by
        rw [count]
        exact Nat.pos_of_ne_zero some
      obtain ⟨row, stored, ofService⟩ := List.countP_pos_iff.mp first
      have image := (record stored (of_decide_eq_true ofService)).2.2.2
      unfold deploymentHasServiceImage
      rw [Bool.or_eq_true_iff]
      right
      rw [List.any_eq_true]
      exact ⟨row, stored, by simp [of_decide_eq_true ofService, image]⟩
    have picks := (pick_summarized_iff reported).mpr hasImage
    obtain ⟨runs, instances⟩ := summary.mpr some
    exact ⟨runs, instances, fun change notStop =>
      perform_unchanged notStop picks allRunning noSurplus⟩

/-- After a rollout with no other writer the worker, the dashboard, start and scale agree on
how many replicas each service has exactly when no service is left without any. -/
theorem replica_counts_agree_iff {crates : Crates} {calls : List BuildCall} {app : App}
    (accepted : Reachable crates app.id calls app.services)
    (distinct : (app.services.map (·.id)).Nodup) {deployment : Deployment}
    (sameApp : deployment.appId = app.id) {isRollback : Bool} {world final : World}
    (stored : isRollback = false → ServicesStored app world.db) {worker : Runtime}
    {networkName : String} {images : ServiceImages} {sharedEnv : List (String × String)}
    {strategy : RolloutStrategy}
    (returned : Runs Possible (deployServices worker app deployment networkName images sharedEnv
      strategy isRollback).run world (.ok ()) final) (server : Server) (runtime : Runtime) :
    (∀ service ∈ app.services, service.isCronJob = false →
      CountsAgree server runtime app final service) ↔
        ∀ service ∈ app.services, service.isCronJob = false → service.replicas ≠ 0 := by
  have owned : ∀ service ∈ app.services, service.appId = app.id :=
    fun service member => (accepted.stored.1 service member).sameApp
  have finished := (deploy_services_finished owned stored).runs returned () rfl
  apply forall₂_congr
  intro service member
  apply forall_congr'
  intro replicated
  exact counts_agree_iff finished sameApp distinct member replicated

def demoSized (replicas : Nat) : App :=
  { demoApp with services := [
      { ContainerService.new ⟨1⟩ 0 ⟨1⟩ "web" "nginx" 80 with
        serviceType := .privateService
        replicas := replicas }] }

def demoSizedWorld (replicas : Nat) : World :=
  { demoWorld with db := { demoWorld.db with services := (demoSized replicas).services } }

def demoSizedRollout (replicas : Nat) : Fallible Unit :=
  deployServices demoRuntime (demoSized replicas) demoDeployment demoApp.networkName
    [(⟨1⟩, "nginx")] [] .stopFirst false

theorem demo_sized_reachable {replicas : Nat}
    (built : demoBuilt [] { demoServiceRequest "web" with replicas := some replicas } =
      some (demoSized replicas).services) :
    ∃ calls, Reachable demoCrates ⟨1⟩ calls (demoSized replicas).services :=
  ⟨_, .build .none .nil (demo_built_yields built)⟩

theorem demo_sized_runs {replicas : Nat}
    (ran : ((demoSizedRollout replicas).run.run system calm
      (demoSizedWorld replicas)).1.toOption = some ()) :
    ∃ final, Runs Possible (demoSizedRollout replicas).run (demoSizedWorld replicas) (.ok ())
      final := by
  have run := runs_run system calm calm_admitted (demoSizedRollout replicas).run
    (demoSizedWorld replicas)
  rw [ok_of_to_option ran] at run
  exact ⟨_, run⟩

theorem demo_sized_stored (replicas : Nat) :
    ServicesStored (demoSized replicas) (demoSizedWorld replicas).db :=
  fun service member => ⟨service, member, rfl, by
    rw [List.mem_singleton.mp member]
    rfl⟩

/-- Two replicas: the numbers agree. -/
theorem replica_counts_agree_two : ∃ final,
    Runs Possible (demoSizedRollout 2).run (demoSizedWorld 2) (.ok ()) final ∧
      ∀ service ∈ (demoSized 2).services, service.isCronJob = false →
        CountsAgree demoServer demoRuntime (demoSized 2) final service := by
  obtain ⟨calls, accepted⟩ := demo_sized_reachable (by decide +kernel :
    demoBuilt [] { demoServiceRequest "web" with replicas := some 2 } =
      some (demoSized 2).services)
  obtain ⟨final, run⟩ := demo_sized_runs (by decide +kernel :
    ((demoSizedRollout 2).run.run system calm (demoSizedWorld 2)).1.toOption = some ())
  refine ⟨final, run, ?_⟩
  apply (replica_counts_agree_iff accepted (by decide) rfl (fun _ => demo_sized_stored 2) run
    demoServer demoRuntime).mpr
  decide

/-- None: the rollout succeeds, and the dashboard misses the one replica it wants. -/
theorem no_replicas_stopped : ∃ calls final, Reachable demoCrates ⟨1⟩ calls (demoSized 0).services ∧
    ServicesStored (demoSized 0) (demoSizedWorld 0).db ∧
    Runs Possible (demoSizedRollout 0).run (demoSizedWorld 0) (.ok ()) final ∧
    ∃ service ∈ (demoSized 0).services, service.isCronJob = false ∧
      ¬CountsAgree demoServer demoRuntime (demoSized 0) final service := by
  obtain ⟨calls, accepted⟩ := demo_sized_reachable (by decide +kernel :
    demoBuilt [] { demoServiceRequest "web" with replicas := some 0 } =
      some (demoSized 0).services)
  obtain ⟨final, run⟩ := demo_sized_runs (by decide +kernel :
    ((demoSizedRollout 0).run.run system calm (demoSizedWorld 0)).1.toOption = some ())
  refine ⟨calls, final, accepted, demo_sized_stored 0, run, _, List.mem_singleton_self _, rfl, ?_⟩
  have owned : ∀ service ∈ (demoSized 0).services, service.appId = (demoSized 0).id :=
    fun service member => (accepted.stored.1 service member).sameApp
  have finished := (deploy_services_finished owned fun _ => demo_sized_stored 0).runs run () rfl
  intro agrees
  exact (counts_agree_iff finished rfl (by decide) (List.mem_singleton_self _) rfl).mp agrees rfl

end Containr.Api.Services
