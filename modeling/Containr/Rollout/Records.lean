import Containr.Rollout.Success

/-!
# The records of a rollout

Which records a rollout leaves does not depend on the containers it finds: every finished
slot has a record of its own, and that of a replica names a container and an image.
-/

namespace Containr.Rollout

open Containr.Effect Containr.Effect.Program Containr.Pushes Containr.Worker

structure RecordOf (deploymentId : Uuid) (slot : Slot) (row : ServiceDeployment) : Prop where
  service : row.serviceId = slot.1.id
  deployment : row.deploymentId = deploymentId
  replica : row.replicaIndex = slot.2
  runs : slot.1.isCronJob = false →
    row.status = .running ∧ row.containerId.isSome = true ∧ row.imageId.isSome = true

structure Logged (deploymentId : Uuid) (done : List Slot) (rows : List ServiceDeployment)
    (world : World) : Prop where
  each : List.Forall₂ (RecordOf deploymentId) done rows
  drawn : ∀ row ∈ rows, row.id ∈ world.issued
  distinct : (rows.map (·.id)).Nodup

section Log

variable {deploymentId : Uuid} {done : List Slot} {rows : List ServiceDeployment}
  {world : World}

theorem logged_nothing : Logged deploymentId [] [] world where
  each := .nil
  drawn _ member := absurd member List.not_mem_nil
  distinct := List.nodup_nil

theorem Logged.later {after : World} (logged : Logged deploymentId done rows world)
    (issued : world.issued ⊆ after.issued) : Logged deploymentId done rows after where
  each := logged.each
  drawn row member := issued (logged.drawn row member)
  distinct := logged.distinct

theorem Logged.push {slot : Slot} {row : ServiceDeployment}
    (logged : Logged deploymentId done rows world) (isRow : RecordOf deploymentId slot row)
    (drawn : row.id ∈ world.issued) (new : row.id ∉ rows.map (·.id)) :
    Logged deploymentId (done ++ [slot]) (rows ++ [row]) world where
  each := List.rel_append logged.each (.cons isRow .nil)
  drawn other member := by
    rcases List.mem_append.mp member with old | last
    · exact logged.drawn other old
    · rw [List.mem_singleton.mp last]
      exact drawn
  distinct := by
    rw [List.map_append, List.nodup_append]
    refine ⟨logged.distinct, List.nodup_singleton _, ?_⟩
    intro id inRows other isLast same
    rw [List.map_singleton, List.mem_singleton] at isLast
    exact new (isLast ▸ same ▸ inRows)

theorem Logged.owned (logged : Logged deploymentId done rows world) :
    ∀ row ∈ rows, row.deploymentId = deploymentId := by
  intro row member
  obtain ⟨slot, -, isRow⟩ := matched_right logged.each member
  exact isRow.deployment

end Log

section Loop

variable {can : Behaviour Effects World}
  (sound : ∀ op before answer after, can op before answer after → Possible op before answer after)
  {plan : Plan} {done : List Slot} {rollout : Rollout} {service : ContainerService}
  {world : World}
include sound

/-- Drawn ids stay drawn. -/
theorem issued_ensures {Value : Type} (program : Sys Value) (world : World) :
    program.Ensures can (fun _ after => world.issued ⊆ after.issued) world := by
  have grows : ∀ op before answer after, True → can op before answer after →
      World.issued before ⊆ World.issued after :=
    fun op before answer after _ possible => possible_issued (sound op before answer after possible)
  let Grown (before after : World) : Prop := before.issued ⊆ after.issued
  have trans : ∀ first second third, Grown first second → Grown second third →
      Grown first third := fun _ _ _ earlier later id member => later (earlier member)
  exact Calls.relates (calls_anything program) grows (fun _ _ member => member) trans world

/-- Nothing a program does takes a record of the rollout away from it. -/
theorem logged_ensures {Value : Type} (program : Sys Value) {rows : List ServiceDeployment}
    (logged : Logged plan.deployment.id done rows world) :
    program.Ensures can (fun _ after => Logged plan.deployment.id done rows after) world := by
  apply (issued_ensures sound program world).mono
  intro _ after issued
  exact logged.later issued

/-- A drawn id belongs to no record of the rollout. -/
theorem draw_logged {rows : List ServiceDeployment}
    (logged : Logged plan.deployment.id done rows world) :
    newUuid.Ensures can (fun id after => Logged plan.deployment.id done rows after ∧
      id ∈ after.issued ∧ id ∉ rows.map (·.id)) world := by
  apply always_op trivial
  intro id drawn possible
  have grown := possible_issued (sound _ _ _ _ possible)
  obtain ⟨fresh, shape⟩ := possible_uuid (sound _ _ _ _ possible)
  refine ⟨logged.later grown, ?_, ?_⟩
  · rw [shape]
    exact List.mem_cons_self
  · intro known
    obtain ⟨row, member, same⟩ := List.mem_map.mp known
    exact fresh (same ▸ logged.drawn row member)

theorem deploy_replica_logged
    (logged : Logged plan.deployment.id done rollout.serviceDeployments world)
    (image : String) (replica : Nat) :
    (plan.deployReplica service image rollout replica).Ensures can (fun result after =>
      result.1 = .ok () → Logged plan.deployment.id (done ++ [(service, replica)])
        result.2.serviceDeployments after) world := by
  unfold Plan.deployReplica
  apply (logged_ensures sound _ logged).bind
  intro _ removed logged
  apply (logged_ensures sound _ logged).bind
  intro prepared ready logged
  rcases prepared with message | mounts
  · apply always_pure.mpr
    intro isOk
    cases isOk
  apply (logged_ensures sound _ logged).bind
  intro started running logged
  rcases started with message | container
  · apply always_pure.mpr
    intro isOk
    cases isOk
  apply (draw_logged sound logged).bind
  intro id drawn facts
  obtain ⟨logged, issued, new⟩ := facts
  apply (issued_ensures sound utcNow drawn).bind
  intro createdAt created first
  apply (issued_ensures sound utcNow created).bind
  intro startedAt begun second
  apply (issued_ensures sound _ begun).bind
  intro _ after third
  apply always_pure.mpr
  intro _
  have grown : drawn.issued ⊆ after.issued := fun _ member => third (second (first member))
  apply (logged.later grown).push _ (grown issued) new
  exact ⟨rfl, rfl, rfl, fun _ => ⟨rfl, rfl, rfl⟩⟩

theorem register_cron_job_logged
    (logged : Logged plan.deployment.id done rollout.serviceDeployments world)
    (isCron : service.isCronJob = true) (image : String) :
    (plan.registerCronJob service image rollout).Ensures can (fun result after =>
      Logged plan.deployment.id (done ++ [(service, 0)]) result.2.serviceDeployments after)
      world := by
  unfold Plan.registerCronJob
  apply (logged_ensures sound _ logged).bind
  intro _ announced logged
  apply (draw_logged sound logged).bind
  intro id drawn facts
  obtain ⟨logged, issued, new⟩ := facts
  apply (issued_ensures sound utcNow drawn).bind
  intro createdAt created first
  apply (issued_ensures sound _ created).bind
  intro _ after second
  apply always_pure.mpr
  have grown : drawn.issued ⊆ after.issued := fun _ member => second (first member)
  apply (logged.later grown).push _ (grown issued) new
  exact ⟨rfl, rfl, rfl, fun notCron => absurd isCron (by simp [notCron])⟩

theorem deploy_service_logged
    (logged : Logged plan.deployment.id done rollout.serviceDeployments world) :
    (plan.deployService rollout service).Ensures can (fun result after =>
      result.1 = .ok () → Logged plan.deployment.id (done ++ slotsOf service)
        result.2.serviceDeployments after) world := by
  unfold Plan.deployService
  cases plan.images.get service.id with
  | none =>
      apply always_pure.mpr
      intro isOk
      cases isOk
  | some image =>
      dsimp only
      by_cases isCron : service.isCronJob = true
      · rw [if_pos isCron, slotsOf, if_pos isCron]
        apply (register_cron_job_logged sound logged isCron image).mono
        intro result after registered _
        exact registered
      · rw [if_neg isCron, slotsOf, if_neg isCron]
        -- the invariant after some replicas of this service
        apply always_iterate (fun replicas rollout world => Logged plan.deployment.id
          (done ++ replicas.map fun replica => (service, replica)) rollout.serviceDeployments
            world) _ []
        · simpa using logged
        · intro acc state reached _
          exact reached
        · intro before replica rest acc state split reached
          apply (deploy_replica_logged sound reached image replica).mono
          intro result after finished
          rcases result with ⟨outcome, acc⟩
          cases outcome with
          | ok _ => simpa using finished rfl
          | error message =>
              intro isOk
              cases isOk

/-- The whole loop: every slot has its record. -/
theorem rollout_services_logged (sorted : List ContainerService) (world : World) :
    (plan.rolloutServices sorted).Ensures can (fun result after =>
      result.1 = .ok () → Logged plan.deployment.id (slots sorted)
        result.2.serviceDeployments after) world := by
  unfold Plan.rolloutServices
  apply always_iterate (fun services rollout world => Logged plan.deployment.id (slots services)
    rollout.serviceDeployments world) _ []
  · exact logged_nothing
  · intro acc state reached _
    exact reached
  · intro before service rest acc state split reached
    apply (deploy_service_logged sound reached).mono
    intro result after finished
    rcases result with ⟨outcome, acc⟩
    cases outcome with
    | ok _ => simpa [slots] using finished rfl
    | error message =>
        intro isOk
        cases isOk

end Loop

section Count

variable {services : List ContainerService} {service : ContainerService}

/-- Of services under ids of their own, each has as many slots as replicas. -/
theorem count_slots (distinct : (services.map (·.id)).Nodup) (member : service ∈ services)
    (replicated : service.isCronJob = false) :
    (slots services).countP (fun slot => slot.1.id = service.id) = service.replicas := by
  induction services with
  | nil => exact absurd member List.not_mem_nil
  | cons first rest ih =>
      rw [List.map_cons, List.nodup_cons] at distinct
      have split : slots (first :: rest) = slotsOf first ++ slots rest := rfl
      rw [split, List.countP_append]
      rcases List.mem_cons.mp member with rfl | later
      · have own : (slotsOf service).countP (fun slot => slot.1.id = service.id) =
            service.replicas := by
          have all : (slotsOf service).countP (fun slot => slot.1.id = service.id) =
              (slotsOf service).length := by
            rw [List.countP_eq_length]
            intro slot inOwn
            simp [own_slots inOwn]
          rw [all, slotsOf, replicated]
          simp
        have others : (slots rest).countP (fun slot => slot.1.id = service.id) = 0 := by
          rw [List.countP_eq_zero]
          intro slot inRest sameId
          apply distinct.1
          rw [← of_decide_eq_true sameId]
          exact List.mem_map_of_mem ((mem_slots rest slot).mp inRest).1
        rw [own, others, Nat.add_zero]
      · have none : (slotsOf first).countP (fun slot => slot.1.id = service.id) = 0 := by
          rw [List.countP_eq_zero]
          intro slot inFirst sameId
          have isFirst := own_slots inFirst
          apply distinct.1
          rw [← isFirst, of_decide_eq_true sameId]
          exact List.mem_map_of_mem later
        rw [none, ih distinct.2 later, Nat.zero_add]

variable {deploymentId : Uuid} {done : List Slot} {rows : List ServiceDeployment}

theorem count_rows (each : List.Forall₂ (RecordOf deploymentId) done rows) (id : Uuid) :
    rows.countP (fun row => row.serviceId = id) = done.countP fun slot => slot.1.id = id := by
  induction each with
  | nil => rfl
  | cons first rest ih => simp only [List.countP_cons, ih, first.service]

end Count

/-- What is stored: the record of the deployment, its rows, and no other running deployment. -/
structure Finished (app : App) (deployment : Deployment) (final : World) : Prop where
  running : OnlyRunning app.id deployment.id final.db
  ofApp : ∃ row, final.db.deploymentRow deployment.id = some row ∧
    row.appId = deployment.appId
  rows : ∃ sorted : List ContainerService, sorted.Perm app.services ∧
    List.Forall₂ (RecordOf deployment.id) (slots sorted) (final.db.rowsOf deployment.id)

section Call

variable {runtime : Runtime} {app : App} {deployment : Deployment} {networkName : String}
  {images : ServiceImages} {sharedEnv : List (String × String)} {strategy : RolloutStrategy}
  {isRollback : Bool} {world : World}

theorem deploy_services_finished (owned : ∀ service ∈ app.services, service.appId = app.id)
    (stored : isRollback = false → ServicesStored app world.db) :
    (deployServices runtime app deployment networkName images sharedEnv strategy
      isRollback).run.Ensures Possible (fun result after => ∀ value, result = .ok value →
        Finished app deployment after) world := by
  have sound : ∀ op before answer after, Possible op before answer after →
      Possible op before answer after := fun _ _ _ _ possible => possible
  unfold deployServices
  apply (sort_services_ensures sound app.services world).run_bind
  intro sorted after facts
  obtain ⟨rfl, reordered⟩ := facts
  rcases sorted with message | sorted
  · intro _ isOk
    cases isOk
  have same := reordered sorted rfl
  apply (previous_running_ensures sound app.id deployment.id _).run_bind
  intro previous start facts
  obtain ⟨rfl, listed⟩ := facts
  rcases previous with message | previous
  · intro _ isOk
    cases isOk
  have isPrevious := listed previous rfl
  subst isPrevious
  apply ((rollout_services_logged sound sorted start).and
    (beside_ensures sound (rollout_services_calls _ sorted) start)).run_lift_bind
  intro result rolled facts
  obtain ⟨logs, beside⟩ := facts
  rcases result with ⟨outcome, rollout⟩
  cases outcome with
  | error message =>
      apply (issued_ensures sound _ rolled).run_lift_bind
      intro _ _ _
      apply always_run_throw.mpr
      intro _ isOk
      cases isOk
  | ok _ =>
      have logged := logs rfl
      have named : ∀ row ∈ rollout.serviceDeployments, ∃ service ∈ app.services,
          row.serviceId = service.id := by
        intro row member
        obtain ⟨slot, inSlots, isRow⟩ := matched_right logged.each member
        exact ⟨slot.1, same.mem_iff.mp ((mem_slots sorted slot).mp inSlots).1, isRow.service⟩
      have storedNow : isRollback = false → ServicesStored app rolled.db := by
        intro notRollback service member
        rw [beside.services]
        exact stored notRollback service member
      apply (finish_rollout_records sound logged.owned logged.distinct named rfl
        beside.deployments owned storedNow).mono
      intro result final facts value isOk
      obtain ⟨recorded, ofApp⟩ := facts value isOk
      refine ⟨⟨recorded.status, ?_⟩, ofApp, sorted, same, ?_⟩
      · intro row member sameApp running
        rcases recorded.others row member sameApp running with own | ⟨left, listed, -, notDone⟩
        · exact own
        · exact absurd listed notDone
      · rw [recorded.rows]
        exact logged.each

end Call

end Containr.Rollout
