import Containr.Rollout.Success

/-!
# The previous version after a failed rollout

A replica that is replaced first loses its old container before the new one is
known to start, and the error path does not mark the deployment that owned it.
Without such a replica, and as long as the store works once the new deployment is
recorded, a failed rollout takes no container away.
-/

namespace Containr.Rollout

open Containr.Effect Containr.Effect.Program Containr.Worker

def RunningContainer (world : World) (owner : Uuid) (name : String) : Prop :=
  world.hasContainer name = true ∧ ∃ row ∈ world.db.deployments, row.id = owner ∧
    row.status = .running ∧ ∃ child ∈ world.db.rowsOf owner, child.containerId = some name

/-- Each container of a running deployment is still there, or the store no longer says
that the deployment runs. -/
def PreviousServing (before after : World) : Prop :=
  ∀ owner name, RunningContainer before owner name →
    after.hasContainer name = true ∨ after.db.statusOf owner ≠ some .running

/-- No container of a running deployment is replaced first or has a name the rollout
uses itself. -/
def Unexposed (plan : Plan) (services : List ContainerService) (world : World) : Prop :=
  ∀ owner name, RunningContainer world owner name → ¬plan.touches services name

/-- The store works once the deployment is recorded as running. -/
def settledChoice (id : Uuid) : (op : Op) → op.Choice → World → Bool
  | .query _, fault, world => world.db.statusOf id ≠ some .running || Option.isNone fault
  | .write change, fault, world => world.db.statusOf id ≠ some .running ||
      (Option.isNone fault && (change.apply world.db).isSome)
  | _, _, _ => true

abbrev settled (id : Uuid) : Machine Effects World := systemWhere (settledChoice id)

/-- Any call but the removal of this container. -/
def Spares (name : String) (op : Op) : Prop := op ≠ .docker (.removeContainer name)

variable {op : Op} {after : World} {answer : op.Answer} {before : World} {name : String}

theorem container_kept (possible : Possible op before answer after) (other : Spares name op)
    (present : before.hasContainer name = true) : after.hasContainer name = true := by
  rcases possible_has_container name possible with same | ⟨body, -, created⟩ | ⟨isRemoval, -⟩
  · rw [same]
    exact present
  · exact created
  · exact absurd isRemoval other

variable {rows : ServiceDeployment → Prop} {names : String → Prop}

theorem within_keeps (untouched : ¬names name) (within : op.Within names rows) :
    Spares name op := by
  intro same
  rw [same] at within
  exact untouched within

section Keeps

variable {can : Behaviour Effects World}
  (sound : ∀ op before answer after, can op before answer after → Possible op before answer after)
include sound

theorem keeps_container {Value : Type} {program : Sys Value} {name : String} {world : World}
    (calls : program.Calls (Spares name)) (present : world.hasContainer name = true) :
    program.Ensures can (fun _ after => after.hasContainer name = true) world := by
  have kept := @Calls.always _ _ _ _ can (fun world => world.hasContainer name = true) program calls
    (fun op before answer after other present possible =>
      container_kept (sound op before answer after possible) other present) world present
  exact kept.restrict (fun _ _ _ _ possible => possible) fun _ _ _ => trivial

end Keeps

section Tracked

variable {can : Behaviour Effects World} {plan : Plan} {services : List ContainerService}

def TracksOwn (plan : Plan) (services : List ContainerService) (rollout : Rollout) : Prop :=
  ∀ name ∈ rollout.newContainerIds, plan.touches services name

variable {service : ContainerService} {rollout : Rollout}

theorem track_own {replica : Nat} (member : service ∈ services)
    (replicated : service.isCronJob = false) (bound : replica < service.replicas)
    (own : TracksOwn plan services rollout) :
    TracksOwn plan services (rollout.track (plan.name service replica)) := by
  intro name tracked
  rcases List.mem_insert_iff.mp tracked with rfl | earlier
  · exact ⟨service, member, replicated, replica, bound, Or.inr (Or.inl rfl)⟩
  · exact own name earlier

theorem any_ensures {Value : Type} (program : Sys Value) (world : World) :
    program.Ensures can (fun _ _ => True) world := by
  apply always_of_runs
  intro _ _ _
  trivial

theorem deploy_replica_tracks {replica : Nat} (member : service ∈ services)
    (replicated : service.isCronJob = false) (bound : replica < service.replicas)
    (own : TracksOwn plan services rollout) (image : String) (world : World) :
    (plan.deployReplica service image rollout replica).Ensures can
      (fun result _ => TracksOwn plan services result.2) world := by
  have tracked := track_own member replicated bound own
  unfold Plan.deployReplica
  apply (any_ensures _ _).bind
  intro _ _ _
  apply (any_ensures _ _).bind
  intro prepared _ _
  rcases prepared with message | mounts
  · exact always_pure.mpr own
  apply (any_ensures _ _).bind
  intro started _ _
  rcases started with message | container
  · exact always_pure.mpr tracked
  apply (any_ensures _ _).bind
  intro id _ _
  apply (any_ensures _ _).bind
  intro createdAt _ _
  apply (any_ensures _ _).bind
  intro startedAt _ _
  apply (any_ensures _ _).bind
  intro _ _ _
  exact always_pure.mpr tracked

theorem deploy_service_tracks (member : service ∈ services) (own : TracksOwn plan services rollout)
    (world : World) : (plan.deployService rollout service).Ensures can
      (fun result _ => TracksOwn plan services result.2) world := by
  unfold Plan.deployService
  split
  · exact always_pure.mpr own
  · split
    · unfold Plan.registerCronJob
      apply (any_ensures _ _).bind
      intro _ _ _
      apply (any_ensures _ _).bind
      intro id _ _
      apply (any_ensures _ _).bind
      intro createdAt _ _
      apply (any_ensures _ _).bind
      intro _ _ _
      exact always_pure.mpr own
    · rename_i image _ notCron
      apply always_iterate (fun _ acc _ => TracksOwn plan services acc) _ []
      · exact own
      · intro acc state reached
        exact reached
      · intro before replica rest acc state split reached
        have inRange : replica ∈ List.range service.replicas := by
          rw [split]
          simp
        apply (deploy_replica_tracks member (by simpa using notCron) (List.mem_range.mp inRange)
          reached image state).mono
        intro result after tracked
        rcases result with ⟨result, acc⟩
        cases result with
        | ok _ => exact tracked
        | error message => exact tracked

theorem rollout_services_tracks (sorted : List ContainerService) (world : World) :
    (plan.rolloutServices sorted).Ensures can
      (fun result _ => TracksOwn plan sorted result.2) world := by
  unfold Plan.rolloutServices
  apply always_iterate (fun _ acc _ => TracksOwn plan sorted acc) _ []
  · intro name none_
    exact absurd none_ List.not_mem_nil
  · intro acc state reached
    exact reached
  · intro before service rest acc state split reached
    have member : service ∈ sorted := by
      rw [split]
      simp
    apply (deploy_service_tracks member reached state).mono
    intro result after tracked
    rcases result with ⟨result, acc⟩
    cases result with
    | ok _ => exact tracked
    | error message => exact tracked

end Tracked

section Settled

variable {id : Uuid} {before after : World}

theorem settled_query {wanted : Query} {answer : Except String wanted.Row}
    (running : before.db.statusOf id = some .running)
    (can : (settled id).can (.query wanted) before answer after) :
    answer = .ok (wanted.read before.db) ∧ after = before := by
  obtain ⟨fault, ⟨-, allowed⟩, result⟩ := can
  have isNone : Option.isNone fault = true := by
    have either : (before.db.statusOf id ≠ some .running || Option.isNone fault) = true := allowed
    simpa [running] using either
  have noFault : fault = none := Option.isNone_iff_eq_none.mp isNone
  subst noFault
  cases result
  exact ⟨rfl, rfl⟩

theorem settled_write {change : Write} {answer : Except String Unit}
    (running : before.db.statusOf id = some .running)
    (can : (settled id).can (.write change) before answer after) :
    answer = .ok () ∧ ∃ db, change.apply before.db = some db ∧ after = { before with db := db } := by
  obtain ⟨fault, ⟨-, allowed⟩, result⟩ := can
  have both : Option.isNone fault = true ∧ (change.apply before.db).isSome = true := by
    have either : (before.db.statusOf id ≠ some .running ||
        (Option.isNone fault && (change.apply before.db).isSome)) = true := allowed
    simpa [running] using either
  have noFault : fault = none := Option.isNone_iff_eq_none.mp both.1
  subst noFault
  obtain ⟨db, applied⟩ := Option.isSome_iff_exists.mp both.2
  have executed := (exec_write_applied applied).symm.trans result
  cases executed
  exact ⟨rfl, db, applied, rfl⟩

theorem get_deployment_settled {wanted : Uuid} {world : World}
    (running : world.db.statusOf id = some .running) :
    (Store.getDeployment wanted).run.Ensures (settled id).can (fun result after =>
      after = world ∧ result = .ok (world.db.getDeployment wanted)) world := by
  unfold Store.getDeployment
  apply always_run_bind.mpr
  apply always_op trivial
  intro answer after can
  obtain ⟨rfl, rfl⟩ := settled_query running can
  cases found : after.db.deploymentRow wanted with
  | none =>
      have isNone : Query.read after.db (.deployment wanted) = none := found
      rw [isNone]
      apply always_run_pure.mpr
      rw [Database.getDeployment, found]
      exact ⟨rfl, rfl⟩
  | some row =>
      have isSome : Query.read after.db (.deployment wanted) = some row := found
      rw [isSome]
      apply always_run_bind.mpr
      apply always_op trivial
      intro answer next can
      obtain ⟨rfl, rfl⟩ := settled_query running can
      apply always_run_pure.mpr
      rw [Database.getDeployment, found]
      exact ⟨rfl, rfl⟩

theorem mark_stopped_settled {previous : Deployment} {world : World} (different : previous.id ≠ id)
    (running : world.db.statusOf id = some .running) :
    (markDeploymentStopped previous).run.Ensures (settled id).can (fun result after =>
      result = .ok () ∧ after.db.statusOf id = some .running) world := by
  unfold markDeploymentStopped
  apply (quiet_ensures (fun _ _ _ _ => where_possible) utc_now_quiet world).run_lift_bind
  intro finishedAt stamped quietly
  have stillRunning : stamped.db.statusOf id = some .running := by
    rw [Database.statusOf, Database.deploymentRow, (quietly.recordless.beside default).deployments]
    exact running
  apply (get_deployment_settled stillRunning).run_bind
  intro loaded after facts
  obtain ⟨rfl, rfl⟩ := facts
  apply always_op trivial
  intro answer last can
  obtain ⟨isOk, db, applied, rfl⟩ := settled_write stillRunning can
  have sameId : ((after.db.getDeployment previous.id).getD previous).id = previous.id := by
    rw [Database.getDeployment]
    cases found : after.db.deploymentRow previous.id with
    | none => rfl
    | some row => exact (lookup_eq_some_mem found).2
  refine ⟨isOk, ?_⟩
  rw [Database.statusOf, Database.save_deployment_row_other applied]
  · exact stillRunning
  · intro same
    exact different (sameId.symm.trans same.symm)

theorem recordless_running {world last : World} (recordless : Recordless world last)
    (running : world.db.statusOf id = some .running) : last.db.statusOf id = some .running := by
  rw [Database.statusOf, Database.deploymentRow, (recordless.beside id).deployments]
  exact running

end Settled

section Call

variable {plan : Plan} {rollout : Rollout} {world : World} {name : String}

theorem restore_spares (snapshot : App) (isRollback : Bool) (name : String) :
    (restoreIfRollback snapshot isRollback).run.Calls (Spares name) :=
  restore_calls snapshot isRollback (fun _ => ⟨by simp [Spares], by simp [Spares]⟩)
    (by simp [Spares]) fun _ => by simp [Spares]

/-- Until the deployment is recorded nothing is removed, and then nothing fails. -/
theorem finish_rollout_keeps {isRollback : Bool}
    (others : ∀ previous ∈ plan.previous, previous.id ≠ plan.deployment.id)
    (present : world.hasContainer name = true) :
    (finishRollout plan rollout isRollback).run.Ensures (settled plan.deployment.id).can
      (fun result after => ∀ message, result = .error message → after.hasContainer name = true)
      world := by
  have sound : ∀ op before answer after, (settled plan.deployment.id).can op before answer after →
      Possible op before answer after := fun _ _ _ _ => where_possible
  unfold finishRollout
  apply (keeps_container sound (restore_spares plan.app isRollback name) present).run_bind
  intro result restored kept
  rcases result with message | _
  · exact fun _ _ => kept
  apply (query_ensures sound _ restored).run_bind
  intro result listed facts
  obtain ⟨rfl, -⟩ := facts
  rcases result with message | existing
  · exact fun _ _ => kept
  apply (quiet_ensures sound utc_now_quiet _).run_lift_bind
  intro startedAt _ first
  apply (quiet_ensures sound utc_now_quiet _).run_lift_bind
  intro finishedAt stamped second
  have present : stamped.hasContainer name = true := by
    unfold World.hasContainer
    rw [(first.trans second).containers]
    exact kept
  apply always_run_bind.mpr
  apply always_op trivial
  intro answer saved can
  rcases possible_write (where_possible can) with ⟨rfl, db, applied, rfl⟩ | ⟨rfl, message, rfl⟩
  · have running : db.statusOf plan.deployment.id = some .running :=
      Database.save_deployment_status_same applied
    apply (quiet_ensures sound (send_proxy_refresh_quiet _ _) _).run_lift_bind
    intro _ refreshed quietly
    have running := recordless_running quietly.recordless running
    apply (recordless_ensures sound (sweep_old_calls _ _) refreshed).run_lift_bind
    intro _ swept recordless
    have running := recordless_running recordless running
    apply always_for_each (fun _ after =>
      after.db.statusOf plan.deployment.id = some .running) _ []
    · exact running
    · intro _ _ _ isError
      cases isError
    · intro before previous rest state split reached
      have member : previous ∈ plan.previous := by
        rw [split]
        simp
      apply (mark_stopped_settled (others previous member) reached).mono
      intro result after facts
      rw [facts.1]
      exact facts.2
  · exact fun _ _ => present

variable {runtime : Runtime} {app : App} {deployment : Deployment} {networkName : String}
  {images : ServiceImages} {sharedEnv : List (String × String)} {strategy : RolloutStrategy}
  {isRollback : Bool}

theorem touches_perm {services sorted : List ContainerService} (same : sorted.Perm services)
    (touched : plan.touches sorted name) : plan.touches services name := by
  obtain ⟨service, member, rest⟩ := touched
  exact ⟨service, same.mem_iff.mp member, rest⟩

theorem deploy_services_keeps (present : world.hasContainer name = true)
    (untouched : ¬(planAt runtime app deployment networkName images sharedEnv strategy
      world).touches app.services name) :
    (deployServices runtime app deployment networkName images sharedEnv strategy
      isRollback).run.Ensures (settled deployment.id).can (fun result after =>
        ∀ message, result = .error message → after.hasContainer name = true) world := by
  have sound : ∀ op before answer after, (settled deployment.id).can op before answer after →
      Possible op before answer after := fun _ _ _ _ => where_possible
  unfold deployServices
  apply (sort_services_ensures sound app.services world).run_bind
  intro sorted after facts
  obtain ⟨rfl, reordered⟩ := facts
  rcases sorted with message | sorted
  · exact fun _ _ => present
  have same := reordered sorted rfl
  apply (previous_running_ensures sound app.id deployment.id _).run_bind
  intro previous start facts
  obtain ⟨rfl, listed⟩ := facts
  rcases previous with message | previous
  · exact fun _ _ => present
  have isPrevious := listed previous rfl
  subst isPrevious
  have untouchedSorted : ¬(planAt runtime app deployment networkName images sharedEnv strategy
      start).touches sorted name := fun touched => untouched (touches_perm same touched)
  apply always_run_lift_bind.mpr
  have kept := keeps_container sound ((rollout_services_calls (planAt runtime app deployment
    networkName images sharedEnv strategy start) sorted).mono
      fun _ => within_keeps untouchedSorted) present
  apply (kept.and (rollout_services_tracks sorted start)).mono
  intro result rolled facts
  rcases result with ⟨outcome, rollout⟩
  cases outcome with
  | error message =>
      apply always_run_lift_bind.mpr
      have undone := undo_tracked rollout
      have untracked : name ∉ rollout.newContainerIds := fun tracked =>
        untouchedSorted (facts.2 name tracked)
      apply (keeps_container sound (undone.mono fun _ => within_keeps untracked) facts.1).mono
      intro _ after stillPresent
      apply always_run_throw.mpr
      exact fun _ _ => stillPresent
  | ok _ =>
      have others : ∀ previous ∈ previousRunning start.db app.id deployment.id,
          previous.id ≠ deployment.id := fun _ member => previous_running_other member
      exact @finish_rollout_keeps (planAt runtime app deployment networkName images sharedEnv
        strategy start) rollout rolled name isRollback others facts.1

end Call

/-- Nothing fails but the creation of containers. -/
def refusing : system.Policy
  | .docker (.createContainer _ _), _ => some "no space left on device"
  | op, world => calm op world

abbrev refused : Machine Effects World := system.only fun op choice world => choice = refusing op world

theorem refused_possible (can : refused.can op before answer after) :
    Possible op before answer after := by
  obtain ⟨choice, admitted, result⟩ := can
  exact ⟨choice, admitted.1, result⟩

theorem refusing_admitted (op : Op) (world : World) :
    refused.Admits op (refusing op world) world := by
  refine ⟨?_, rfl⟩
  cases op with
  | newUuid => exact world.fresh_uuid_new
  | _ => trivial

theorem refused_absent (can : refused.can op before answer after)
    (absent : before.hasContainer name = false) : after.hasContainer name = false := by
  rcases possible_has_container name (refused_possible can) with same | ⟨body, rfl, -⟩ | ⟨-, gone⟩
  · rw [same]
    exact absent
  · obtain ⟨choice, ⟨-, same⟩, result⟩ := can
    subst same
    cases result
    exact absent
  · exact gone

section Refused

variable {Value : Type} {world : World} {name : String}

theorem absent_ensures (program : Sys Value) (absent : world.hasContainer name = false) :
    program.Ensures refused.can (fun _ after => after.hasContainer name = false) world := by
  have calls : program.Calls fun _ => True := by
    induction program with
    | pure value => exact calls_pure _
    | call op next ih => exact calls_call.mpr ⟨trivial, ih⟩
  have kept := @Calls.always _ _ _ _ refused.can (fun world => world.hasContainer name = false)
    program calls (fun _ _ _ _ _ absent can => refused_absent can absent) world absent
  exact kept.restrict (fun _ _ _ _ possible => possible) fun _ _ _ => trivial

theorem refused_sort (services : List ContainerService) (world : World) :
    (sortServices services).run.Ensures refused.can (fun result after => after = world ∧
      result = topologicalSortServices services (readyNames services)) world := by
  unfold sortServices
  apply always_run_lift_bind.mpr
  apply op_always.mpr
  refine ⟨trivial, fun ready after can => always_pure.mpr ?_⟩
  obtain ⟨order, ⟨-, same⟩, result⟩ := can
  subst same
  cases result
  exact ⟨rfl, rfl⟩

def Answered : (op : Op) → op.Answer → Prop
  | .query _, .error _ => False
  | _, _ => True

theorem refused_answered {op : Op} {before after : World} {answer : op.Answer}
    (can : refused.can op before answer after) : Answered op answer := by
  cases op with
  | query wanted =>
      obtain ⟨choice, ⟨-, same⟩, result⟩ := can
      subst same
      cases result
      trivial
  | _ => trivial

theorem children_answered (rows : List Deployment) :
    @Under Effects _ Answered (fun _ => True) (Store.withServiceDeployments rows).run
      fun result => ∃ listed, result = .ok listed := by
  induction rows with
  | nil => exact under_pure.mpr ⟨_, rfl⟩
  | cons row rest ih =>
      unfold Store.withServiceDeployments
      apply under_run_bind.mpr
      apply under_op trivial
      intro answer answered
      rcases answer with message | children
      · exact answered.elim
      apply ih.run_bind
      intro result isOk
      obtain ⟨others, rfl⟩ := isOk
      exact under_pure.mpr ⟨_, rfl⟩

theorem refused_previous (appId current : Uuid) (world : World) :
    (getPreviousRunningDeployments appId current).run.Ensures refused.can (fun result after =>
      after = world ∧ result = .ok (previousRunning world.db appId current)) world := by
  have answered : (getPreviousRunningDeployments appId current).run.Under Answered (fun _ => True)
      fun result => ∃ listed, result = .ok listed := by
    unfold getPreviousRunningDeployments Store.listDeploymentsByApp
    apply under_run_bind.mpr
    apply under_run_bind.mpr
    apply under_op trivial
    intro answer answered
    rcases answer with message | rows
    · exact answered.elim
    apply (children_answered rows).mono
    intro result isOk
    obtain ⟨listed, rfl⟩ := isOk
    exact under_pure.mpr ⟨_, rfl⟩
  have returns := @Under.always _ _ _ _ _ refused.can (fun _ => True) _ _ answered
    (fun _ _ _ _ _ can => refused_answered can) (fun _ _ _ _ _ _ _ => trivial) world trivial
  have listed := previous_running_ensures (fun _ _ _ _ => refused_possible) appId current world
  apply (listed.and returns).mono
  intro result after facts
  obtain ⟨⟨same, isListed⟩, ⟨value, isOk⟩, -⟩ := facts
  refine ⟨same, ?_⟩
  rw [isOk, isListed value isOk]

theorem refused_remove (name : String) (world : World) :
    (removeContainer name).Ensures refused.can
      (fun _ after => after.hasContainer name = false) world := by
  unfold removeContainer
  apply (any_ensures _ _).bind
  intro _ stopped _
  apply ignore_always.mpr
  apply always_op trivial
  intro answer after can
  obtain ⟨choice, ⟨-, same⟩, result⟩ := can
  subst same
  have served : stopped.removeContainer name = (answer, after) := result
  rcases stopped.remove_container_cases name with ⟨absent, message, failed⟩ | ⟨-, removed⟩
  · rw [failed] at served
    cases served
    exact absent
  · rw [removed] at served
    cases served
    simp [World.hasContainer]

theorem refused_start (service : ContainerService) (replica : Nat) (config : DockerContainerConfig)
    (world : World) :
    (Plan.startReplica service replica config).run.Ensures refused.can
      (fun result _ => ∃ message, result = .error message) world := by
  unfold Plan.startReplica createContainer createContainerAs
  apply always_run_bind.mpr
  apply always_run_lift_bind.mpr
  apply (any_ensures _ _).mono
  intro _ seeded _
  apply always_run_bind.mpr
  apply always_op trivial
  intro answer after can
  obtain ⟨choice, ⟨-, same⟩, result⟩ := can
  subst same
  cases result
  exact ⟨_, rfl⟩

variable {plan : Plan} {service : ContainerService}

theorem refused_replica {rollout : Rollout} {image : String}
    (first : replacedFirst plan.strategy service 0 = true)
    (old : oldContainer plan.previous service.id 0 = some name) (world : World) :
    (plan.deployReplica service image rollout 0).Ensures refused.can (fun result after =>
      (∃ message, result.1 = .error message) ∧ after.hasContainer name = false) world := by
  unfold Plan.deployReplica Plan.removeOld
  rw [if_pos first, old]
  apply always_bind.mpr
  apply always_bind.mpr
  apply (any_ensures _ _).mono
  intro _ stopped _
  apply (refused_remove name stopped).mono
  intro _ removed absent
  apply (absent_ensures _ absent).bind
  intro prepared _ absent
  rcases prepared with message | mounts
  · exact always_pure.mpr ⟨⟨message, rfl⟩, absent⟩
  apply ((refused_start service 0 _ _).and (absent_ensures _ absent)).bind
  intro started _ facts
  obtain ⟨⟨message, rfl⟩, absent⟩ := facts
  exact always_pure.mpr ⟨⟨message, rfl⟩, absent⟩

theorem refused_rollout {rest : List ContainerService} {image : String}
    (found : plan.images.get service.id = some image) (replicated : service.isCronJob = false)
    (some_ : 0 < service.replicas) (first : replacedFirst plan.strategy service 0 = true)
    (old : oldContainer plan.previous service.id 0 = some name) (world : World) :
    (plan.rolloutServices (service :: rest)).Ensures refused.can (fun result after =>
      (∃ message, result.1 = .error message) ∧ after.hasContainer name = false) world := by
  obtain ⟨count, isSucc⟩ := Nat.exists_eq_succ_of_ne_zero (Nat.ne_of_gt some_)
  unfold Plan.rolloutServices iterate
  apply always_bind.mpr
  unfold Plan.deployService
  rw [found]
  dsimp only
  rw [if_neg (by simp [replicated]), isSucc, List.range_succ_eq_map, iterate]
  apply (refused_replica first old world).bind
  intro result after facts
  rcases result with ⟨outcome, rollout⟩
  obtain ⟨⟨message, rfl⟩, absent⟩ := facts
  exact always_pure.mpr (always_pure.mpr ⟨⟨message, rfl⟩, absent⟩)

def ReplacedAtOnce (plan : Plan) (services : List ContainerService) (name : String) : Prop :=
  ∃ service rest image, topologicalSortServices services (readyNames services) =
      .ok (service :: rest) ∧ plan.images.get service.id = some image ∧
    service.isCronJob = false ∧ 0 < service.replicas ∧
    replacedFirst plan.strategy service 0 = true ∧
    oldContainer plan.previous service.id 0 = some name

theorem refused_deploy {runtime : Runtime} {app : App} {deployment : Deployment}
    {networkName : String} {images : ServiceImages} {sharedEnv : List (String × String)}
    {strategy : RolloutStrategy} {isRollback : Bool}
    (replaced : ReplacedAtOnce (planAt runtime app deployment networkName images sharedEnv strategy
      world) app.services name) :
    (deployServices runtime app deployment networkName images sharedEnv strategy
      isRollback).run.Always refused.can (fun _ op => op.Within (fun _ => True) fun _ => True)
        (fun result after => (∃ message, result = .error message) ∧
          after.hasContainer name = false) world := by
  obtain ⟨service, rest, image, sorted, found, replicated, some_, first, old⟩ := replaced
  have quiet : ∀ {Value : Type} {program : Sys Value}, program.Calls Op.Quiet →
      program.Calls (Op.Within (fun _ => True) fun _ => True) := fun calls =>
    calls.mono Op.Quiet.within
  unfold deployServices
  apply ((quiet (sort_services_quiet _)).ensures (refused_sort app.services world)).run_bind
  intro result after facts
  obtain ⟨rfl, rfl⟩ := facts
  rw [sorted]
  apply ((quiet (get_previous_running_quiet _ _)).ensures
    (refused_previous app.id deployment.id _)).run_bind
  intro result start facts
  obtain ⟨rfl, rfl⟩ := facts
  apply always_run_lift_bind.mpr
  have rollout := @refused_rollout _ _ _ rest _ found replicated some_ first old start
  have calls := (rollout_services_calls (planAt runtime app deployment networkName images sharedEnv
    strategy start) (service :: rest)).mono
      (Op.Within.mono (fun _ _ => trivial) fun _ _ => trivial)
  apply (calls.ensures rollout).mono
  intro result rolled facts
  rcases result with ⟨outcome, rollout⟩
  obtain ⟨⟨message, rfl⟩, absent⟩ := facts
  apply always_run_lift_bind.mpr
  have undone := undo_tracked rollout
  have calls := undone.mono (Op.Within.mono (fun _ _ => trivial) fun _ rows => rows)
  apply (calls.ensures (absent_ensures _ absent)).mono
  intro _ after absent
  apply always_run_throw.mpr
  exact ⟨⟨message, rfl⟩, absent⟩

end Refused

theorem within_deployments (within : op.Within names rows)
    (possible : Possible op before answer after) :
    after.db.deployments = before.db.deployments := by
  rcases possible_written possible with same | ⟨change, db, rfl, applied, rfl⟩
  · rw [same]
  · cases change with
    | saveServiceDeployment row => rw [Database.save_service_deployment_shape applied]
    | appendDeploymentLog id line => rw [Database.append_deployment_log_shape applied]
    | saveApp app => exact within.elim
    | deleteApp id => exact within.elim
    | saveDeployment deployment => exact within.elim
    | deleteDeployment id => exact within.elim

theorem settled_of_refused {id : Uuid} (notRunning : before.db.statusOf id ≠ some .running)
    (can : refused.can op before answer after) : (settled id).can op before answer after := by
  obtain ⟨choice, admitted, result⟩ := can
  refine ⟨choice, ⟨admitted.1, ?_⟩, result⟩
  cases op with
  | query wanted => simp [settledChoice, notRunning]
  | write change => simp [settledChoice, notRunning]
  | _ => rfl

section Exact

variable {runtime : Runtime} {app : App} {deployment : Deployment} {networkName : String}
  {images : ServiceImages} {sharedEnv : List (String × String)} {strategy : RolloutStrategy}
  {isRollback : Bool} {world : World}

/-- A container that is replaced at once is lost when its successor cannot be created,
and the deployment that owned it is still stored as running. -/
theorem replaced_at_once_lost {owner : Uuid} {name : String}
    (replaced : ReplacedAtOnce (planAt runtime app deployment networkName images sharedEnv strategy
      world) app.services name)
    (container : RunningContainer world owner name)
    (distinct : (world.db.deployments.map (·.id)).Nodup)
    (notRunning : world.db.statusOf deployment.id ≠ some .running) :
    ∃ message final, Runs (settled deployment.id).can (deployServices runtime app deployment
        networkName images sharedEnv strategy isRollback).run world (.error message) final ∧
      ¬PreviousServing world final := by
  have run := runs_run refused refusing refusing_admitted (deployServices runtime app deployment
    networkName images sharedEnv strategy isRollback).run world
  have always := @Always.guard _ _ _ _ _ _ _ _ (fun state => state.db.deployments =
    world.db.deployments) (@refused_deploy _ _ _ _ _ _ _ _ _ isRollback replaced)
    (fun op before answer after within same can =>
      (within_deployments within (refused_possible can)).trans same) rfl
  obtain ⟨⟨⟨message, isError⟩, absent⟩, deployments⟩ := always.runs run
  rw [isError] at run
  refine ⟨message, _, always.transfer run ?_, ?_⟩
  · intro op before answer after permitted can
    apply settled_of_refused _ can
    rw [Database.statusOf, Database.deploymentRow, permitted.2]
    exact notRunning
  · intro serving
    rcases serving owner name container with present | stopped
    · rw [absent] at present
      cases present
    · apply stopped
      obtain ⟨-, row, stored, sameId, running, -⟩ := container
      rw [Database.statusOf, Database.deploymentRow, deployments, ← sameId,
        lookup_of_mem distinct stored, Option.map_some, running]

/-- A failed rollout takes no container of a running deployment away when none is
replaced first or has a name of the rollout, and the store works once the new
deployment is recorded. A container that is replaced at once can be lost. -/
theorem failed_rollout_previous :
    (Unexposed (planAt runtime app deployment networkName images sharedEnv strategy world)
        app.services world →
      ∀ message final, Runs (settled deployment.id).can (deployServices runtime app deployment
        networkName images sharedEnv strategy isRollback).run world (.error message) final →
        PreviousServing world final) ∧
    ∀ owner name, ReplacedAtOnce (planAt runtime app deployment networkName images sharedEnv
        strategy world) app.services name →
      RunningContainer world owner name → (world.db.deployments.map (·.id)).Nodup →
      world.db.statusOf deployment.id ≠ some .running →
      ∃ message final, Runs (settled deployment.id).can (deployServices runtime app deployment
          networkName images sharedEnv strategy isRollback).run world (.error message) final ∧
        ¬PreviousServing world final := by
  constructor
  · intro unexposed message final failed owner name container
    have kept := @deploy_services_keeps world name runtime app deployment networkName images
      sharedEnv strategy isRollback container.1 (unexposed owner name container)
    exact Or.inl (kept.runs failed message rfl)
  · intro owner name replaced container distinct notRunning
    exact replaced_at_once_lost replaced container distinct notRunning

end Exact

theorem demo_unexposed : Unexposed (planAt demoRuntime demoReplicas demoDeployment
    demoReplicas.networkName [(⟨2⟩, "nginx:1")] [] .startFirst demoServing) demoReplicas.services
    demoServing := by
  intro owner name container touched
  have isOld : name = "web-old" := by
    have present := container.1
    simpa [World.hasContainer, demoServing, eq_comm] using present
  subst isOld
  obtain ⟨service, member, -, replica, bound, own⟩ := touched
  have none_ : ∀ service ∈ demoReplicas.services, ∀ replica < service.replicas,
      ¬((replacedFirst .startFirst service replica = true ∧ oldContainer (previousRunning
          demoServing.db demoReplicas.id demoDeployment.id) service.id replica = some "web-old") ∨
        ("web-old" = containerName demoReplicas service replica demoDeployment.id ∨
          "web-old" = seedHelperName (containerName demoReplicas service replica
            demoDeployment.id))) := by
    decide +kernel
  exact none_ service member replica bound own

/-- The second replica is refused; the container of the earlier deployment stays. -/
theorem failed_rollout_previous_kept :
    ∃ message final, Runs (settled demoDeployment.id).can (deployServices demoRuntime demoReplicas
        demoDeployment demoReplicas.networkName [(⟨2⟩, "nginx:1")] [] .startFirst false).run
        demoServing (.error message) final ∧ PreviousServing demoServing final := by
  have runs : ((deployServices demoRuntime demoReplicas demoDeployment demoReplicas.networkName
      [(⟨2⟩, "nginx:1")] [] .startFirst false).run.runChecked (settled demoDeployment.id) oneCreate
        demoServing).map (fun last => last.1.toOption) = some none := by
    decide +kernel
  obtain ⟨⟨result, final⟩, executed, failed⟩ := Option.map_eq_some_iff.mp runs
  cases result with
  | ok value => cases failed
  | error message =>
      have run := Runs.of_checked executed
      exact ⟨message, final, run, failed_rollout_previous.1 demo_unexposed message final run⟩

/-- Stop-first, and the first replica is refused: the container of the earlier
deployment is gone, and the deployment is stored as running. -/
theorem failed_rollout_loses_previous :
    ∃ message final, Runs Possible (deployServices demoRuntime demoReplicas demoDeployment
        demoReplicas.networkName [(⟨2⟩, "nginx:1")] [] .stopFirst false).run demoServing
        (.error message) final ∧ ¬PreviousServing demoServing final := by
  have runs : ((deployServices demoRuntime demoReplicas demoDeployment demoReplicas.networkName
      [(⟨2⟩, "nginx:1")] [] .stopFirst false).run.runChecked (settled demoDeployment.id) refusing
        demoServing).map (fun last => (last.1.toOption, last.2.hasContainer "web-old",
          last.2.db.statusOf ⟨9⟩)) = some (none, false, some .running) := by
    decide +kernel
  obtain ⟨⟨result, final⟩, executed, facts⟩ := Option.map_eq_some_iff.mp runs
  simp only [Prod.mk.injEq] at facts
  cases result with
  | ok value => cases facts.1
  | error message =>
      have run := Runs.of_checked executed
      have always := @any_ensures (settled demoDeployment.id).can _ (deployServices
        demoRuntime demoReplicas demoDeployment demoReplicas.networkName [(⟨2⟩, "nginx:1")] []
        .stopFirst false).run demoServing
      refine ⟨message, final, always.transfer run fun _ _ _ _ _ => where_possible, ?_⟩
      intro serving
      have container : RunningContainer demoServing ⟨9⟩ "web-old" := by
        unfold RunningContainer
        decide
      rcases serving ⟨9⟩ "web-old" container with present | stopped
      · rw [facts.2.1] at present
        cases present
      · exact stopped facts.2.2

end Containr.Rollout
