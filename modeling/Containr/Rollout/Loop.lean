import Containr.Pushes
import Containr.Rollout.Containers
import Containr.Rollout.Names

/-!
# The rollout loop

A slot is one replica of a service, or a cron job. `Deployed` is the loop invariant
of `rollout_services`: one record per finished slot and one running container per
finished replica. `Broken` is what is left when a slot fails.
-/

namespace Containr.Rollout

open Containr.Effect Containr.Effect.Program Containr.Pushes Containr.Worker

abbrev Slot : Type := ContainerService × Nat

def slotsOf (service : ContainerService) : List Slot :=
  if service.isCronJob then [(service, 0)]
  else (List.range service.replicas).map fun replica => (service, replica)

def slots (services : List ContainerService) : List Slot := services.flatMap slotsOf

structure RowFor (plan : Plan) (slot : Slot) (row : ServiceDeployment) : Prop where
  service : row.serviceId = slot.1.id
  deployment : row.deploymentId = plan.deployment.id
  replica : row.replicaIndex = slot.2
  running : slot.1.isCronJob = false →
    row.status = .running ∧ row.containerId = some (plan.name slot.1 slot.2)
  scheduled : slot.1.isCronJob = true → row.status = .stopped ∧ row.containerId = none

structure ContainerFor (plan : Plan) (base : Nat) (slot : Slot) (container : Container) : Prop where
  name : container.name = plan.name slot.1 slot.2
  later : base ≤ container.serial
  running : container.running = true
  made : ∃ image mounts, plan.images.get slot.1.id = some image ∧
    container.body = .service (plan.config slot.1 slot.2 image mounts)

def IsNew (plan : Plan) (services : List ContainerService) (name : String) : Prop :=
  ∃ service ∈ services, service.isCronJob = false ∧
    ∃ replica < service.replicas, ownNames (plan.name service replica) name

structure FreshNames (plan : Plan) (services : List ContainerService) (world : World) : Prop where
  unused : ∀ name, IsNew plan services name →
    ∀ container ∈ world.containers, container.name ≠ name
  unrecorded : ∀ name, IsNew plan services name → name ∉ allOldContainers plan.previous

/-- The containers left after the removals of a rollout. -/
def keep (gone : List String) (containers : List Container) : List Container :=
  containers.filter (·.name ∉ gone)

theorem without_keep (name : String) (gone : List String) (containers : List Container) :
    without name (keep gone containers) = keep (name :: gone) containers := by
  unfold without keep
  rw [List.filter_filter]
  apply List.filter_congr
  intro container _
  simp [not_or]

theorem keep_nil (containers : List Container) : keep [] containers = containers := by
  simp [keep]

theorem keep_congr {first second : List String} (same : ∀ name, name ∈ first ↔ name ∈ second)
    (containers : List Container) : keep first containers = keep second containers := by
  unfold keep
  apply List.filter_congr
  intro container _
  simp [same]

theorem keep_append (gone : List String) (first second : List Container) :
    keep gone (first ++ second) = keep gone first ++ keep gone second := List.filter_append _ _

theorem keep_all {gone : List String} {containers : List Container}
    (absent : ∀ container ∈ containers, container.name ∉ gone) :
    keep gone containers = containers := by
  unfold keep
  rw [List.filter_eq_self]
  intro container member
  simpa using absent container member

theorem keep_none {gone : List String} {containers : List Container}
    (listed : ∀ container ∈ containers, container.name ∈ gone) : keep gone containers = [] := by
  unfold keep
  rw [List.filter_eq_nil_iff]
  intro container member
  simpa using listed container member

structure Written (plan : Plan) (start : World) (rows : List ServiceDeployment) (world : World) :
    Prop where
  beside : Beside plan.deployment.id start world
  table : ∀ row ∈ world.db.serviceDeployments, row ∈ start.db.serviceDeployments ∨
    ∃ written ∈ rows, Database.rowKey row = Database.rowKey written ∧
      (start.db.saveServiceDeployment written).isSome = true
  owned : ∀ row ∈ rows, row.deploymentId = plan.deployment.id
  issued : start.issued ⊆ world.issued
  drawn : ∀ row ∈ rows, row.id ∈ world.issued
  distinct : (rows.map (·.id)).Nodup

def ReplacedFirst (plan : Plan) (services : List ContainerService) (name : String) : Prop :=
  ∃ service ∈ services, service.isCronJob = false ∧ ∃ replica < service.replicas,
    replacedFirst plan.strategy service replica = true ∧
      oldContainer plan.previous service.id replica = some name

structure Deployed (plan : Plan) (services : List ContainerService) (start : World)
    (done : List Slot) (gone : List String) (created : List Container) (rollout : Rollout)
    (world : World) : Prop where
  held : Held (keep gone start.containers ++ created) start.nextSerial world
  written : Written plan start rollout.serviceDeployments world
  rows : List.Forall₂ (RowFor plan) done rollout.serviceDeployments
  containers : List.Forall₂ (ContainerFor plan start.nextSerial)
    (done.filter fun slot => !slot.1.isCronJob) created
  tracked : ∀ name, name ∈ rollout.newContainerIds ↔ ∃ container ∈ created, container.name = name
  new : ∀ container ∈ created, IsNew plan services container.name
  replaced : ∀ name ∈ gone, ReplacedFirst plan services name

structure Broken (plan : Plan) (services : List ContainerService) (start : World)
    (gone : List String) (created : List Container) (rollout : Rollout) (world : World) : Prop where
  held : Held (keep gone start.containers ++ created) start.nextSerial world
  written : Written plan start rollout.serviceDeployments world
  tracked : ∀ container ∈ created, container.name ∈ rollout.newContainerIds
  new : ∀ name ∈ rollout.newContainerIds, IsNew plan services name
  replaced : ∀ name ∈ gone, ReplacedFirst plan services name

theorem Deployed.broken {plan : Plan} {services : List ContainerService} {start world : World}
    {done : List Slot} {gone : List String} {created : List Container} {rollout : Rollout}
    (deployed : Deployed plan services start done gone created rollout world) :
    Broken plan services start gone created rollout world where
  held := deployed.held
  written := deployed.written
  tracked container member := (deployed.tracked _).mpr ⟨container, member, rfl⟩
  new name member := by
    obtain ⟨container, inCreated, same⟩ := (deployed.tracked name).mp member
    rw [← same]
    exact deployed.new container inCreated
  replaced := deployed.replaced

section Records

variable {plan : Plan} {start before after : World} {rows : List ServiceDeployment}

theorem written_of_recordless (written : Written plan start rows before)
    (recordless : Recordless before after) : Written plan start rows after where
  beside := written.beside.trans (recordless.beside _)
  table row member := written.table row (recordless.table ▸ member)
  owned := written.owned
  issued _ member := recordless.issued (written.issued member)
  drawn row member := recordless.issued (written.drawn row member)
  distinct := written.distinct

theorem written_push {row : ServiceDeployment} (written : Written plan start rows before)
    (owned : row.deploymentId = plan.deployment.id) (drawn : row.id ∈ before.issued)
    (new : row.id ∉ rows.map (·.id)) :
    Written plan start (rows ++ [row]) before where
  beside := written.beside
  table other member := by
    rcases written.table other member with old | ⟨known, inRows, same⟩
    · exact Or.inl old
    · exact Or.inr ⟨known, List.mem_append_left _ inRows, same⟩
  owned other member := by
    rcases List.mem_append.mp member with old | last
    · exact written.owned other old
    · rw [List.mem_singleton.mp last]
      exact owned
  issued := written.issued
  drawn other member := by
    rcases List.mem_append.mp member with old | last
    · exact written.drawn other old
    · rw [List.mem_singleton.mp last]
      exact drawn
  distinct := by
    rw [List.map_append, List.nodup_append]
    refine ⟨written.distinct, List.nodup_singleton _, ?_⟩
    intro id inRows other isLast same
    rw [List.map_singleton, List.mem_singleton] at isLast
    exact new (isLast ▸ same ▸ inRows)

/-- Whether a record is accepted depends on the services and deployments only. -/
theorem save_accepted_of_beside {id : Uuid} (beside : Beside id before after)
    (row : ServiceDeployment) :
    (after.db.saveServiceDeployment row).isSome = (before.db.saveServiceDeployment row).isSome := by
  unfold Database.saveServiceDeployment Database.hasService Database.hasDeployment
  rw [beside.services, beside.deployments]
  split
  · rfl
  · rfl

/-- Nor does it depend on the other columns of the record. -/
theorem save_accepted_of_keys (db : Database) {row other : ServiceDeployment}
    (service : other.serviceId = row.serviceId) (owner : other.deploymentId = row.deploymentId) :
    (db.saveServiceDeployment other).isSome = (db.saveServiceDeployment row).isSome := by
  unfold Database.saveServiceDeployment
  rw [service, owner]
  split
  · rfl
  · rfl

variable {can : Behaviour Effects World} (environment : Environment can)
include environment

variable {containers : List Container}

/-- Saving the last record, whether or not the store accepts it. -/
theorem save_row_ensures {row : ServiceDeployment} (written : Written plan start rows before)
    (member : row ∈ rows) (held : Held containers start.nextSerial before) :
    (Plan.saveServiceDeploymentBestEffort row).Ensures can (fun _ after =>
      Written plan start rows after ∧ Held containers start.nextSerial after) before := by
  apply ignore_always.mpr
  apply always_op trivial
  intro answer after possible
  rcases possible_write (environment.sound _ _ _ _ possible) with ⟨-, db, applied, rfl⟩ | ⟨rfl, -⟩
  · have shape := Database.save_service_deployment_shape applied
    have within : Op.Within (fun _ => False) (fun other => other.deploymentId = plan.deployment.id)
        (.write (.saveServiceDeployment row)) := written.owned row member
    have beside := written.beside.trans
      (within_beside within (environment.sound _ _ _ _ possible))
    have accepted : (start.db.saveServiceDeployment row).isSome = true := by
      rw [← save_accepted_of_beside written.beside row]
      exact Option.isSome_iff_exists.mpr ⟨db, applied⟩
    refine ⟨⟨beside, ?_, written.owned, written.issued, written.drawn, written.distinct⟩,
      held.same, held.numbered, held.later⟩
    intro other stored
    rw [shape] at stored
    rcases mem_upsert.mp stored with rfl | ⟨inTable, -⟩
    · exact Or.inr ⟨other, member, rfl, accepted⟩
    · exact written.table other inTable
  · exact ⟨written, held⟩

/-- A drawn id belongs to no record written so far. -/
theorem draw_ensures (written : Written plan start rows before)
    (held : Held containers start.nextSerial before) :
    newUuid.Ensures can (fun id after => (Written plan start rows after ∧
      Held containers start.nextSerial after) ∧ id ∈ after.issued ∧ id ∉ rows.map (·.id)) before := by
  apply always_op trivial
  intro id after possible
  have sound := environment.sound _ _ _ _ possible
  have quietly : Quietly before after := quiet_step (show Op.Quiet .newUuid from trivial) sound
  obtain ⟨fresh, shape⟩ := possible_uuid sound
  refine ⟨⟨written_of_recordless written quietly.recordless, held_of_quietly held quietly⟩, ?_, ?_⟩
  · rw [shape]
    exact List.mem_cons_self
  · intro known
    obtain ⟨row, member, same⟩ := List.mem_map.mp known
    exact fresh (same ▸ written.drawn row member)

theorem clock_ensures (written : Written plan start rows before)
    (held : Held containers start.nextSerial before) {id : Uuid} (drawn : id ∈ before.issued) :
    utcNow.Ensures can (fun _ after => (Written plan start rows after ∧
      Held containers start.nextSerial after) ∧ id ∈ after.issued) before := by
  apply (quiet_ensures environment.sound utc_now_quiet before).mono
  intro _ after quietly
  exact ⟨⟨written_of_recordless written quietly.recordless, held_of_quietly held quietly⟩,
    quietly.recordless.issued drawn⟩

end Records

section Replica

variable {can : Behaviour Effects World} {plan : Plan} {services : List ContainerService}
  {start world : World} {done : List Slot} {gone : List String} {created : List Container}
  {rollout : Rollout} {service : ContainerService} {replica : Nat}

theorem Deployed.move {after : World} {gone' : List String}
    (deployed : Deployed plan services start done gone created rollout world)
    (held : Held (keep gone' start.containers ++ created) start.nextSerial after)
    (recordless : Recordless world after)
    (replaced : ∀ name ∈ gone', ReplacedFirst plan services name) :
    Deployed plan services start done gone' created rollout after where
  held := held
  written := written_of_recordless deployed.written recordless
  rows := deployed.rows
  containers := deployed.containers
  tracked := deployed.tracked
  new := deployed.new
  replaced := replaced

theorem helper_absent (deployed : Deployed plan services start done gone created rollout world)
    (fresh : FreshNames plan services start) (member : service ∈ services)
    (replicated : service.isCronJob = false) (bound : replica < service.replicas) :
    ∀ container ∈ keep gone start.containers ++ created,
      container.name ≠ seedHelperName (plan.name service replica) := by
  intro container present
  rcases List.mem_append.mp present with old | new
  · exact fresh.unused _ ⟨service, member, replicated, replica, bound, Or.inr rfl⟩ container
      (List.mem_filter.mp old).1
  · obtain ⟨slot, -, made⟩ := matched_right deployed.containers new
    rw [made.name]
    exact (seed_helper_ne_name plan.app slot.1 slot.2 plan.deployment.id _).symm

theorem created_not_old (deployed : Deployed plan services start done gone created rollout world)
    (fresh : FreshNames plan services start) {name : String}
    (old : name ∈ allOldContainers plan.previous) :
    ∀ container ∈ created, container.name ≠ name := by
  intro container member same
  exact fresh.unrecorded container.name (deployed.new container member) (same ▸ old)

variable (environment : Environment can)
include environment

theorem remove_old_ensures (deployed : Deployed plan services start done gone created rollout world)
    (fresh : FreshNames plan services start) (member : service ∈ services)
    (replicated : service.isCronJob = false) (bound : replica < service.replicas) :
    (plan.removeOld service replica).Ensures can (fun _ after =>
      ∃ gone', Deployed plan services start done gone' created rollout after) world := by
  have recordless : (plan.removeOld service replica).Ensures can
      (fun _ after => Recordless world after) world :=
    recordless_ensures environment.sound (remove_old_calls plan service replica) world
  unfold Plan.removeOld at recordless ⊢
  by_cases first : replacedFirst plan.strategy service replica = true
  · rw [if_pos first] at recordless ⊢
    cases found : oldContainer plan.previous service.id replica with
    | none => exact always_pure.mpr ⟨gone, deployed⟩
    | some old =>
        rw [found] at recordless
        have removed : without old (keep gone start.containers ++ created) =
            keep (old :: gone) start.containers ++ created := by
          rw [without_append, without_keep,
            without_absent (created_not_old deployed fresh (old_container_recorded found))]
        have containers : ((stopContainer old).bind fun _ => removeContainer old).Ensures can
            (fun _ after => Held (keep (old :: gone) start.containers ++ created) start.nextSerial
              after) world := by
          rw [← removed]
          exact stop_remove_holds environment old deployed.held
        apply (containers.and recordless).mono
        intro _ after both
        refine ⟨old :: gone, deployed.move both.1 both.2 ?_⟩
        intro name inGone
        rcases List.mem_cons.mp inGone with rfl | earlier
        · exact ⟨service, member, replicated, replica, bound, first, found⟩
        · exact deployed.replaced name earlier
  · rw [if_neg first]
    exact always_pure.mpr ⟨gone, deployed⟩

theorem prepare_replica_ensures
    (deployed : Deployed plan services start done gone created rollout world) (image : String) :
    (plan.prepareReplica service image).run.Ensures can (fun _ after =>
      Deployed plan services start done gone created rollout after) world := by
  apply (quiet_ensures environment.sound (prepare_replica_quiet plan service image) world).mono
  intro _ after quietly
  exact deployed.move (held_of_quietly deployed.held quietly) quietly.recordless deployed.replaced

/-- Either nothing is left, or the new container; it runs when the start succeeds. -/
theorem start_replica_ensures
    (deployed : Deployed plan services start done gone created rollout world)
    (fresh : FreshNames plan services start) (member : service ∈ services)
    (replicated : service.isCronJob = false) (bound : replica < service.replicas) {image : String}
    (found : plan.images.get service.id = some image) (mounts : List DockerBindMount) :
    (Plan.startReplica service replica (plan.config service replica image mounts)).run.Ensures can
      (fun result after => Recordless world after ∧
        ((Held (keep gone start.containers ++ created) start.nextSerial after ∧
            ∃ message, result = .error message) ∨
          ∃ container, Held (keep gone start.containers ++ (created ++ [container]))
              start.nextSerial after ∧ container.name = plan.name service replica ∧
            ∀ name, result = .ok name → name = plan.name service replica ∧
              ContainerFor plan start.nextSerial (service, replica) container)) world := by
  have recordless : (Plan.startReplica service replica
      (plan.config service replica image mounts)).run.Ensures can
        (fun _ after => Recordless world after) world :=
    recordless_ensures environment.sound (start_replica_calls service replica _) world
  have containers : (Plan.startReplica service replica
      (plan.config service replica image mounts)).run.Ensures can (fun result after =>
        (Held (keep gone start.containers ++ created) start.nextSerial after ∧
            ∃ message, result = .error message) ∨
          ∃ container, Held (keep gone start.containers ++ (created ++ [container]))
              start.nextSerial after ∧ container.name = plan.name service replica ∧
            ∀ name, result = .ok name → name = plan.name service replica ∧
              ContainerFor plan start.nextSerial (service, replica) container) world := by
    unfold Plan.startReplica
    apply always_run_bind.mpr
    have absent := helper_absent deployed fresh member replicated bound
    apply (create_container_holds environment (plan.config service replica image mounts) absent
      deployed.held).mono
    intro result after outcome
    rcases outcome with ⟨held, message, rfl⟩ | ⟨container, held, ⟨name, body, later⟩, runs⟩
    · exact Or.inl ⟨held, message, rfl⟩
    rw [List.append_assoc] at held
    rcases result with message | running
    · right
      refine ⟨container, held, name, ?_⟩
      intro other absurd
      cases absurd
    · obtain ⟨rfl, isRunning⟩ := runs running rfl
      apply (quiet_holds environment (await_health_quiet service replica _) held).run_bind
      intro healthy next stillHeld
      rcases healthy with message | _
      · right
        refine ⟨container, stillHeld, name, ?_⟩
        intro other absurd
        cases absurd
      · apply always_run_pure.mpr
        right
        refine ⟨container, stillHeld, name, ?_⟩
        intro other same
        cases same
        exact ⟨rfl, name, later, isRunning, image, mounts, found, body⟩
  exact recordless.and containers

theorem deploy_replica_ensures
    (deployed : Deployed plan services start done gone created rollout world)
    (fresh : FreshNames plan services start) (member : service ∈ services)
    (replicated : service.isCronJob = false) (bound : replica < service.replicas) {image : String}
    (found : plan.images.get service.id = some image) :
    (plan.deployReplica service image rollout replica).Ensures can (fun result after =>
      ∃ gone created, match result.1 with
        | .ok () => Deployed plan services start (done ++ [(service, replica)]) gone created
            result.2 after
        | .error _ => Broken plan services start gone created result.2 after) world := by
  unfold Plan.deployReplica
  apply (remove_old_ensures environment deployed fresh member replicated bound).bind
  intro _ removed cleared
  obtain ⟨gone, cleared⟩ := cleared
  apply (prepare_replica_ensures environment cleared image).bind
  intro prepared ready deployed
  rcases prepared with message | mounts
  · exact always_pure.mpr ⟨gone, created, deployed.broken⟩
  apply (start_replica_ensures environment deployed fresh member replicated bound found
    mounts).bind
  intro started running outcome
  obtain ⟨recordless, containers⟩ := outcome
  have isNew : IsNew plan services (plan.name service replica) :=
    ⟨service, member, replicated, replica, bound, Or.inl rfl⟩
  have written := written_of_recordless deployed.written recordless
  -- the name is tracked before the create, so it is tracked whatever happened
  have trackedNames : ∀ name, name ∈ (rollout.track (plan.name service replica)).newContainerIds ↔
      name = plan.name service replica ∨ name ∈ rollout.newContainerIds := by
    intro name
    exact List.mem_insert_iff
  have broken : ∀ last : List Container,
      Held (keep gone start.containers ++ (created ++ last)) start.nextSerial running →
      (∀ container ∈ last, container.name = plan.name service replica) →
      Broken plan services start gone (created ++ last)
        (rollout.track (plan.name service replica)) running := by
    intro last held named
    refine ⟨held, written, ?_, ?_, deployed.replaced⟩
    · intro container inCreated
      rw [trackedNames]
      rcases List.mem_append.mp inCreated with old | new
      · exact Or.inr (deployed.broken.tracked container old)
      · exact Or.inl (named container new)
    · intro name tracked
      rcases (trackedNames name).mp tracked with rfl | old
      · exact isNew
      · exact deployed.broken.new name old
  rcases containers with ⟨held, message, rfl⟩ | ⟨container, held, named, runs⟩
  · apply always_pure.mpr
    refine ⟨gone, created ++ [], broken [] (by rwa [List.append_nil]) ?_⟩
    intro container none
    exact absurd none List.not_mem_nil
  rcases started with message | name
  · apply always_pure.mpr
    refine ⟨gone, created ++ [container], broken [container] held ?_⟩
    intro other isLast
    rw [List.mem_singleton.mp isLast]
    exact named
  obtain ⟨rfl, made⟩ := runs name rfl
  apply (draw_ensures environment written held).bind
  intro id drawn facts
  obtain ⟨⟨written, held⟩, issued, new⟩ := facts
  apply (clock_ensures environment written held issued).bind
  intro createdAt _ facts
  obtain ⟨⟨written, held⟩, issued⟩ := facts
  apply (clock_ensures environment written held issued).bind
  intro startedAt _ facts
  obtain ⟨⟨written, held⟩, issued⟩ := facts
  have pushed := @written_push _ _ _ _ (plan.replicaRow service replica image
    (plan.name service replica) id createdAt startedAt) written rfl issued new
  apply (save_row_ensures environment pushed
    (List.mem_append_right _ (List.mem_singleton_self _)) held).bind
  intro _ after facts
  apply always_pure.mpr
  refine ⟨gone, created ++ [container], ?_⟩
  constructor
  · exact facts.2
  · exact facts.1
  · apply List.rel_append deployed.rows
    apply List.Forall₂.cons _ List.Forall₂.nil
    exact ⟨rfl, rfl, rfl, fun _ => ⟨rfl, rfl⟩, fun isCron => absurd isCron (by simp [replicated])⟩
  · have slot : (done ++ [(service, replica)]).filter (fun slot => !slot.1.isCronJob) =
        done.filter (fun slot => !slot.1.isCronJob) ++ [(service, replica)] := by
      simp [replicated]
    rw [slot]
    apply List.rel_append deployed.containers
    exact List.Forall₂.cons made List.Forall₂.nil
  · intro name
    rw [show name ∈ ((rollout.track (plan.name service replica)).push _).newContainerIds ↔ _ from
      trackedNames name, deployed.tracked]
    constructor
    · intro isTracked
      rcases isTracked with rfl | ⟨other, inCreated, same⟩
      · exact ⟨container, List.mem_append_right _ (List.mem_singleton_self _), named⟩
      · exact ⟨other, List.mem_append_left _ inCreated, same⟩
    · intro exists_
      obtain ⟨other, inCreated, same⟩ := exists_
      rcases List.mem_append.mp inCreated with old | last
      · exact Or.inr ⟨other, old, same⟩
      · rw [List.mem_singleton.mp last, named] at same
        exact Or.inl same.symm
  · intro other inCreated
    rcases List.mem_append.mp inCreated with old | last
    · exact deployed.new other old
    · rw [List.mem_singleton.mp last, named]
      exact isNew
  · exact deployed.replaced

theorem register_cron_job_ensures
    (deployed : Deployed plan services start done gone created rollout world)
    (isCron : service.isCronJob = true) (image : String) :
    (plan.registerCronJob service image rollout).Ensures can (fun result after =>
      result.1 = .ok () ∧ Deployed plan services start (done ++ [(service, 0)]) gone created
        result.2 after) world := by
  unfold Plan.registerCronJob
  apply (quiet_ensures environment.sound (ignore_calls (log_quiet _ _)) world).bind
  intro _ logged quietly
  have written := written_of_recordless deployed.written quietly.recordless
  have held := held_of_quietly deployed.held quietly
  apply (draw_ensures environment written held).bind
  intro id _ facts
  obtain ⟨⟨written, held⟩, issued, new⟩ := facts
  apply (clock_ensures environment written held issued).bind
  intro createdAt _ facts
  obtain ⟨⟨written, held⟩, issued⟩ := facts
  have pushed := @written_push _ _ _ _ (plan.cronRow service image id createdAt) written rfl issued
    new
  apply (save_row_ensures environment pushed
    (List.mem_append_right _ (List.mem_singleton_self _)) held).bind
  intro _ after facts
  apply always_pure.mpr
  refine ⟨rfl, facts.2, facts.1, ?_, ?_, deployed.tracked, deployed.new, deployed.replaced⟩
  · apply List.rel_append deployed.rows
    apply List.Forall₂.cons _ List.Forall₂.nil
    exact ⟨rfl, rfl, rfl, fun notCron => absurd isCron (by simp [notCron]), fun _ => ⟨rfl, rfl⟩⟩
  · have slot : (done ++ [(service, 0)]).filter (fun slot => !slot.1.isCronJob) =
        done.filter fun slot => !slot.1.isCronJob := by
      simp [isCron]
    rw [slot]
    exact deployed.containers

theorem deploy_service_ensures
    (deployed : Deployed plan services start done gone created rollout world)
    (fresh : FreshNames plan services start) (member : service ∈ services) :
    (plan.deployService rollout service).Ensures can (fun result after =>
      ∃ gone created, match result.1 with
        | .ok () => Deployed plan services start (done ++ slotsOf service) gone created result.2
            after
        | .error _ => Broken plan services start gone created result.2 after) world := by
  unfold Plan.deployService
  cases found : plan.images.get service.id with
  | none => exact always_pure.mpr ⟨gone, created, deployed.broken⟩
  | some image =>
      dsimp only
      by_cases isCron : service.isCronJob = true
      · rw [if_pos isCron]
        apply (register_cron_job_ensures environment deployed isCron image).mono
        intro result after outcome
        obtain ⟨isOk, registered⟩ := outcome
        refine ⟨gone, created, ?_⟩
        rw [isOk, slotsOf, if_pos isCron]
        exact registered
      · have replicated : service.isCronJob = false := by simpa using isCron
        rw [if_neg isCron, slotsOf, if_neg isCron]
        -- the invariant after some replicas of this service
        apply always_iterate (fun replicas rollout world => ∃ gone created,
          Deployed plan services start (done ++ replicas.map fun replica => (service, replica)) gone
            created rollout world) _ []
        · exact ⟨gone, created, by simpa using deployed⟩
        · intro acc state reached
          obtain ⟨gone, created, deployed⟩ := reached
          exact ⟨gone, created, deployed⟩
        · intro before replica rest acc state split reached
          obtain ⟨gone, created, deployed⟩ := reached
          have inRange : replica ∈ List.range service.replicas := by
            rw [split]
            simp
          apply (deploy_replica_ensures environment deployed fresh member replicated
            (List.mem_range.mp inRange) found).mono
          intro result after outcome
          obtain ⟨gone, created, outcome⟩ := outcome
          rcases result with ⟨result, acc⟩
          cases result with
          | ok _ => exact ⟨gone, created, by simpa using outcome⟩
          | error message => exact ⟨gone, created, outcome⟩

end Replica

section Whole

variable {can : Behaviour Effects World} (environment : Environment can) {plan : Plan}
  {start : World}
include environment

theorem rollout_services_ensures {sorted : List ContainerService}
    (fresh : FreshNames plan sorted start)
    (numbered : ∀ container ∈ start.containers, container.serial < start.nextSerial) :
    (plan.rolloutServices sorted).Ensures can (fun result after =>
      ∃ gone created, match result.1 with
        | .ok () => Deployed plan sorted start (slots sorted) gone created result.2 after
        | .error _ => Broken plan sorted start gone created result.2 after) start := by
  unfold Plan.rolloutServices
  apply always_iterate (fun services rollout world => ∃ gone created,
    Deployed plan sorted start (slots services) gone created rollout world) _ []
  · refine ⟨[], [], ?_⟩
    constructor
    · exact ⟨by rw [keep_nil, List.append_nil], by simpa [keep_nil] using numbered, le_refl _⟩
    · refine ⟨beside_rfl _ _, fun row member => Or.inl member, ?_, fun _ member => member, ?_,
        List.nodup_nil⟩
      · intro row none
        exact absurd none List.not_mem_nil
      · intro row none
        exact absurd none List.not_mem_nil
    · exact List.Forall₂.nil
    · exact List.Forall₂.nil
    · intro name
      constructor
      · intro none
        exact absurd none List.not_mem_nil
      · intro exists_
        obtain ⟨container, none, -⟩ := exists_
        exact absurd none List.not_mem_nil
    · intro container none
      exact absurd none List.not_mem_nil
    · intro name none
      exact absurd none List.not_mem_nil
  · intro acc state reached
    exact reached
  · intro before service rest acc state split reached
    obtain ⟨gone, created, deployed⟩ := reached
    have member : service ∈ sorted := by
      rw [split]
      simp
    apply (deploy_service_ensures environment deployed fresh member).mono
    intro result after outcome
    obtain ⟨gone, created, outcome⟩ := outcome
    rcases result with ⟨result, acc⟩
    cases result with
    | ok _ => exact ⟨gone, created, by simpa [slots] using outcome⟩
    | error message => exact ⟨gone, created, outcome⟩

end Whole

end Containr.Rollout
