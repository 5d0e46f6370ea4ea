import Containr.Rollout.Failure

/-!
# A rollout that returns `Ok`

The record of the deployment is saved with one row per slot, the containers of the
deployments that ran before are gone and those deployments are stopped.
-/

namespace Containr.Rollout

open Containr.Effect Containr.Effect.Program Containr.Pushes Containr.Worker

section Matching

variable {Left Right Key : Type} [DecidableEq Key] {relation : Left → Right → Prop}
  {lefts : List Left} {rights : List Right}

/-- Where the keys on the left are distinct, each of them has one match. -/
theorem matched_once {key : Left → Key} {keyRight : Right → Key}
    (matched : List.Forall₂ relation lefts rights)
    (same : ∀ left right, relation left right → keyRight right = key left)
    (once : (lefts.map key).Nodup) {left : Left} (member : left ∈ lefts) :
    ∃ right, relation left right ∧
      rights.filter (fun other => keyRight other = key left) = [right] := by
  induction matched with
  | nil => exact absurd member List.not_mem_nil
  | @cons head right lefts rights first rest ih =>
      rw [List.map_cons, List.nodup_cons] at once
      rcases List.mem_cons.mp member with rfl | later
      · refine ⟨right, first, ?_⟩
        have others : rights.filter (fun other => keyRight other = key left) = [] := by
          rw [List.filter_eq_nil_iff]
          intro other inRest isKey
          apply once.1
          rw [← matched_keys rest same]
          exact List.mem_map.mpr ⟨other, inRest, by simpa using isKey⟩
        rw [List.filter_cons_of_pos (by simpa using same _ _ first), others]
      · obtain ⟨found, holds, only⟩ := ih once.2 later
        refine ⟨found, holds, ?_⟩
        have skipped : ¬keyRight right = key left := by
          intro isKey
          apply once.1
          rw [← same _ _ first, isKey]
          exact List.mem_map_of_mem later
        rw [List.filter_cons_of_neg (by simpa using skipped), only]

end Matching

def slotKey (slot : Slot) : Uuid × Nat := (slot.1.id, slot.2)

theorem mem_slots (services : List ContainerService) (slot : Slot) :
    slot ∈ slots services ↔ slot.1 ∈ services ∧
      ((slot.1.isCronJob = true ∧ slot.2 = 0) ∨
        (slot.1.isCronJob = false ∧ slot.2 < slot.1.replicas)) := by
  obtain ⟨service, replica⟩ := slot
  unfold slots slotsOf
  rw [List.mem_flatMap]
  constructor
  · intro exists_
    obtain ⟨owner, member, listed⟩ := exists_
    by_cases isCron : owner.isCronJob = true
    · rw [if_pos isCron, List.mem_singleton] at listed
      cases listed
      exact ⟨member, Or.inl ⟨isCron, rfl⟩⟩
    · rw [if_neg isCron] at listed
      obtain ⟨index, bound, isSlot⟩ := List.mem_map.mp listed
      cases isSlot
      exact ⟨member, Or.inr ⟨by simpa using isCron, List.mem_range.mp bound⟩⟩
  · intro facts
    obtain ⟨member, kind⟩ := facts
    refine ⟨service, member, ?_⟩
    rcases kind with ⟨isCron, isZero⟩ | ⟨replicated, bound⟩
    · rw [if_pos isCron, List.mem_singleton]
      exact Prod.ext rfl isZero
    · rw [if_neg (by simp [replicated])]
      exact List.mem_map.mpr ⟨replica, List.mem_range.mpr bound, rfl⟩

theorem own_slots {service : ContainerService} {slot : Slot}
    (member : slot ∈ slotsOf service) : slot.1 = service := by
  unfold slotsOf at member
  split at member
  · rw [List.mem_singleton.mp member]
  · obtain ⟨replica, -, isSlot⟩ := List.mem_map.mp member
    rw [← isSlot]

theorem slots_once {services : List ContainerService} (distinct : (services.map (·.id)).Nodup) :
    ((slots services).map slotKey).Nodup := by
  induction services with
  | nil => exact List.nodup_nil
  | cons service services ih =>
      rw [List.map_cons, List.nodup_cons] at distinct
      have split : slots (service :: services) = slotsOf service ++ slots services := rfl
      rw [split, List.map_append, List.nodup_append]
      refine ⟨?_, ih distinct.2, ?_⟩
      · unfold slotsOf
        split
        · exact List.nodup_singleton _
        · rw [List.map_map]
          apply List.Nodup.map _ List.nodup_range
          intro first second same
          exact congrArg Prod.snd same
      · intro first inFirst second inRest same
        obtain ⟨one, inOne, rfl⟩ := List.mem_map.mp inFirst
        obtain ⟨two, inTwo, rfl⟩ := List.mem_map.mp inRest
        apply distinct.1
        have sameId : service.id = two.1.id := own_slots inOne ▸ congrArg Prod.fst same
        rw [sameId]
        exact List.mem_map_of_mem ((mem_slots services two).mp inTwo).1

section Finish

variable {can : Behaviour Effects World}

def ServicesStored (app : App) (db : Database) : Prop :=
  ∀ service ∈ app.services, ∃ row ∈ db.services, row.id = service.id ∧ row.appId = app.id

/-- The state apart from the app and its services. -/
structure SameRecords (before after : World) : Prop where
  deployments : after.db.deployments = before.db.deployments
  containers : after.containers = before.containers
  serial : after.nextSerial = before.nextSerial

theorem quietly_same_records {before after : World} (quietly : Quietly before after) :
    SameRecords before after :=
  ⟨(quietly.recordless.beside default).deployments, quietly.containers, quietly.serial⟩

section Sound

variable
  (sound : ∀ op before answer after, can op before answer after → Possible op before answer after)
include sound

theorem restore_ensures {app : App} {isRollback : Bool} {world : World}
    (owned : ∀ service ∈ app.services, service.appId = app.id)
    (stored : isRollback = false → ServicesStored app world.db) :
    (restoreIfRollback app isRollback).run.Ensures can (fun result after => ∀ value,
      result = .ok value → SameRecords world after ∧ ServicesStored app after.db) world := by
  unfold restoreIfRollback
  cases isRollback with
  | false =>
      apply always_run_pure.mpr
      intro _ _
      exact ⟨⟨rfl, rfl, rfl⟩, stored rfl⟩
  | true =>
      unfold restoreAppServices
      apply (get_app_ensures sound app.id world).run_bind
      intro loaded after facts
      obtain ⟨rfl, isApp⟩ := facts
      rcases loaded with message | loaded
      · intro _ isOk
        cases isOk
      cases loaded with
      | none =>
          apply always_run_throw.mpr
          intro _ isOk
          cases isOk
      | some current =>
          apply (quiet_ensures sound utc_now_quiet _).run_lift_bind
          intro now stamped quietly
          apply (write_ensures sound _ stamped).mono
          intro result saved facts value isOk
          obtain ⟨db, applied, rfl⟩ := facts value isOk
          have records := quietly_same_records quietly
          refine ⟨⟨?_, records.containers, records.serial⟩, ?_⟩
          · rw [← records.deployments]
            exact Database.save_app_deployments applied
          · intro service member
            obtain ⟨row, inTable, sameId, isService⟩ :=
              Database.save_app_services applied service member
            exact ⟨row, inTable, sameId, owned row isService⟩

end Sound

variable (environment : Environment can)
include environment

/-- The second sweep removes every container of the earlier deployments. -/
theorem sweep_old_ensures {previous : List Deployment} {tracked : List String}
    {containers : List Container} {base : Nat} {world : World}
    (held : Held containers base world)
    (disjoint : ∀ name ∈ allOldContainers previous, name ∉ tracked) :
    (sweepOld previous tracked).Ensures can (fun _ after => Recordless world after ∧
      Held (keep (allOldContainers previous) containers) base after) world := by
  have recordless := recordless_ensures environment.sound (sweep_old_calls previous tracked) world
  apply recordless.and
  unfold sweepOld
  apply always_bind.mpr
  have drawn : (iterationOrder (allOldContainers previous)).Calls Op.Quiet := op_calls trivial
  apply (quiet_ensures environment.sound drawn world).mono
  intro order begun quietly
  apply always_for_all (fun done after => Held (keep done containers) base after) _ []
  · rw [keep_nil]
    exact held_of_quietly held quietly
  · intro state swept
    rw [List.nil_append, keep_congr fun name => order.property.mem_iff] at swept
    exact swept
  · intro before name rest state split reached
    have isOld : name ∈ allOldContainers previous := by
      apply order.property.mem_iff.mp
      rw [split]
      simp
    rw [if_neg (disjoint name isOld)]
    apply (stop_remove_holds environment name reached).mono
    intro _ after removed
    have same : keep ([] ++ before ++ [name]) containers = keep (name :: ([] ++ before)) containers :=
      keep_congr (by simp [or_comm]) containers
    rw [same, ← without_keep]
    exact removed

end Finish

section Mark

variable {can : Behaviour Effects World} {plan : Plan} {rows : List ServiceDeployment}
  {world : World}

/-- The record of the rollout is saved; of the others of the app, only the earlier
deployments that are not stopped yet run. -/
structure Recorded (plan : Plan) (rows : List ServiceDeployment) (stopped : List Deployment)
    (world : World) : Prop where
  status : world.db.statusOf plan.deployment.id = some .running
  rows : world.db.rowsOf plan.deployment.id = rows
  others : ∀ row ∈ world.db.deployments, row.appId = plan.app.id → row.status = .running →
    row.id = plan.deployment.id ∨
      ∃ previous ∈ plan.previous, previous.id = row.id ∧ previous ∉ stopped

theorem recorded_of_recordless {stopped : List Deployment} {after : World}
    (recorded : Recorded plan rows stopped world) (recordless : Recordless world after) :
    Recorded plan rows stopped after := by
  constructor
  · rw [Database.statusOf, Database.deploymentRow, (recordless.beside default).deployments]
    exact recorded.status
  · rw [Database.rowsOf, recordless.table]
    exact recorded.rows
  · rw [(recordless.beside default).deployments]
    exact recorded.others

theorem recorded_of_stop {stopped : List Deployment} {previous saved : Deployment} {db : Database}
    (applied : world.db.saveDeployment saved = some db) (recorded : Recorded plan rows stopped world)
    (different : previous.id ≠ plan.deployment.id) (sameId : saved.id = previous.id)
    (isStopped : saved.status = .stopped) :
    Recorded plan rows (stopped ++ [previous]) { world with db := db } := by
  have other : plan.deployment.id ≠ saved.id := by
    rw [sameId]
    exact different.symm
  constructor
  · rw [Database.statusOf, Database.save_deployment_row_other applied other]
    exact recorded.status
  · rw [Database.save_deployment_rows_other applied other]
    exact recorded.rows
  · intro row member sameApp running
    rw [(Database.save_deployment_shape applied).2.2.1] at member
    rcases mem_upsert.mp member with isSaved | ⟨old, otherId⟩
    · rw [isSaved] at running
      have status : saved.status = .running := running
      rw [isStopped] at status
      cases status
    · rcases recorded.others row old sameApp running with own | ⟨left, listed, isRow, notDone⟩
      · exact Or.inl own
      · refine Or.inr ⟨left, listed, isRow, ?_⟩
        intro done
        rcases List.mem_append.mp done with earlier | last
        · exact notDone earlier
        · apply otherId
          rw [← isRow, List.mem_singleton.mp last, ← sameId]
          rfl

def OfApp (plan : Plan) (world : World) : Prop :=
  ∃ row, world.db.deploymentRow plan.deployment.id = some row ∧ row.appId = plan.deployment.appId

theorem of_app_of_recordless {after : World} (ofApp : OfApp plan world)
    (recordless : Recordless world after) : OfApp plan after := by
  unfold OfApp Database.deploymentRow
  rw [(recordless.beside default).deployments]
  exact ofApp

theorem of_app_of_save {saved : Deployment} {db : Database} (ofApp : OfApp plan world)
    (applied : world.db.saveDeployment saved = some db) (other : plan.deployment.id ≠ saved.id) :
    OfApp plan { world with db := db } := by
  unfold OfApp
  rw [Database.save_deployment_row_other applied other]
  exact ofApp

variable
  (sound : ∀ op before answer after, can op before answer after → Possible op before answer after)
include sound

theorem mark_stopped_ensures (previous : Deployment) (world : World) :
    (markDeploymentStopped previous).run.Ensures can (fun result after => ∀ value,
      result = .ok value → ∃ stamped db saved, Quietly world stamped ∧
        stamped.db.saveDeployment saved = some db ∧ saved.id = previous.id ∧
        saved.status = .stopped ∧ after = { stamped with db := db }) world := by
  unfold markDeploymentStopped
  apply (quiet_ensures sound utc_now_quiet world).run_lift_bind
  intro finishedAt stamped quietly
  apply (get_deployment_ensures sound previous.id stamped).run_bind
  intro loaded after facts
  obtain ⟨rfl, isLoaded⟩ := facts
  rcases loaded with message | loaded
  · intro _ isOk
    cases isOk
  have sameId : (loaded.getD previous).id = previous.id := by
    rw [isLoaded loaded rfl, Database.getDeployment]
    cases found : after.db.deploymentRow previous.id with
    | none => rfl
    | some row => exact (lookup_eq_some_mem found).2
  apply (write_ensures sound _ after).mono
  intro result last facts value isOk
  obtain ⟨db, applied, isLast⟩ := facts value isOk
  exact ⟨after, db, _, quietly, applied, sameId, rfl, isLast⟩

end Mark

section Whole

variable {can : Behaviour Effects World} {plan : Plan} {sorted : List ContainerService}
  {start world : World} {gone : List String}
  {created : List Container} {rollout : Rollout} {db : Database}

theorem previous_running_other {appId current : Uuid} {previous : Deployment}
    (member : previous ∈ previousRunning db appId current) : previous.id ≠ current := by
  have facts := (List.mem_filter.mp member).2
  simp only [Bool.and_eq_true, decide_eq_true_eq] at facts
  exact facts.1

theorem previous_running_listed {appId current : Uuid} {row : Deployment}
    (stored : row ∈ db.deployments) (sameApp : row.appId = appId) (running : row.status = .running) :
    row.id = current ∨ ∃ previous ∈ previousRunning db appId current, previous.id = row.id := by
  by_cases own : row.id = current
  · exact Or.inl own
  · have listed : row ∈ db.deploymentRowsByApp appId := by
      unfold Database.deploymentRowsByApp
      rw [List.mem_insertionSort, List.mem_filter]
      exact ⟨stored, by simpa using sameApp⟩
    refine Or.inr ⟨{ row with serviceDeployments := db.serviceDeploymentsOf row.id }, ?_, rfl⟩
    unfold previousRunning listDeployments
    rw [List.mem_filter]
    refine ⟨List.mem_map_of_mem (f := fun row : Deployment =>
      { row with serviceDeployments := db.serviceDeploymentsOf row.id }) listed, ?_⟩
    simp [own, running]

theorem kept_rows {rows : List ServiceDeployment}
    (named : ∀ row ∈ rows, ∃ service ∈ plan.app.services, row.serviceId = service.id)
    (stored : ServicesStored plan.app db) : rows.filter (fun row =>
      (db.servicesByApp plan.app.id).any fun service => service.id = row.serviceId) = rows := by
  rw [List.filter_eq_self]
  intro row member
  obtain ⟨wanted, isService, sameService⟩ := named row member
  obtain ⟨service, inTable, sameId, sameApp⟩ := stored wanted isService
  rw [List.any_eq_true]
  refine ⟨service, ?_, ?_⟩
  · unfold Database.servicesByApp
    rw [List.mem_insertionSort, List.mem_filter]
    exact ⟨inTable, by simpa using sameApp⟩
  · rw [sameService, decide_eq_true_eq]
    exact sameId

theorem recorded_of_finish {rows : List ServiceDeployment} {startedAt finishedAt : Time}
    {before : World} (rowsOwned : ∀ row ∈ rows, row.deploymentId = plan.deployment.id)
    (distinct : (rows.map (·.id)).Nodup)
    (previous : plan.previous = previousRunning start.db plan.app.id plan.deployment.id)
    (deployments : before.db.deployments = start.db.deployments)
    (applied : before.db.saveDeployment (finishedDeployment plan rows startedAt finishedAt) =
      some db) :
    Recorded plan rows [] { before with db := db } ∧ OfApp plan { before with db := db } := by
  constructor
  · constructor
    · exact Database.save_deployment_status_same applied
    · exact Database.save_deployment_rows_same applied rowsOwned distinct
    · intro row member sameApp running
      rw [(Database.save_deployment_shape applied).2.2.1, deployments] at member
      rcases mem_upsert.mp member with isSaved | ⟨old, -⟩
      · rw [isSaved]
        exact Or.inl rfl
      · rcases previous_running_listed old sameApp running with own | ⟨listed, inList, sameId⟩
        · exact Or.inl own
        · refine Or.inr ⟨listed, ?_, sameId, List.not_mem_nil⟩
          rw [previous]
          exact inList
  · refine ⟨Database.storedDeployment (finishedDeployment plan rows startedAt finishedAt), ?_, rfl⟩
    rw [Database.deploymentRow, (Database.save_deployment_shape applied).2.2.1]
    exact lookup_upsert_same (·.id)
      (Database.storedDeployment (finishedDeployment plan rows startedAt finishedAt))
      before.db.deployments

theorem swept_containers
    (deployed : Deployed plan sorted start (slots sorted) gone created rollout world)
    (fresh : FreshNames plan sorted start) :
    keep (allOldContainers plan.previous) (keep gone start.containers ++ created) =
      keep (allOldContainers plan.previous) start.containers ++ created := by
  have isOld : ∀ name ∈ gone, name ∈ allOldContainers plan.previous := by
    intro name isGone
    obtain ⟨service, -, -, replica, -, -, found⟩ := deployed.replaced name isGone
    exact old_container_recorded found
  rw [keep_append, keep_all fun container member =>
    fresh.unrecorded container.name (deployed.new container member)]
  apply congrArg (· ++ created)
  unfold keep
  rw [List.filter_filter]
  apply List.filter_congr
  intro container _
  by_cases swept : container.name ∈ allOldContainers plan.previous
  · simp [swept]
  · have kept : container.name ∉ gone := fun isGone => swept (isOld _ isGone)
    simp [swept, kept]

section Sound

variable
  (sound : ∀ op before answer after, can op before answer after → Possible op before answer after)
include sound

/-- The record is saved with every record of the rollout; then the earlier deployments go. -/
theorem finish_rollout_saves {isRollback : Bool} {post : Except String Unit → World → Prop}
    (named : ∀ row ∈ rollout.serviceDeployments, ∃ service ∈ plan.app.services,
      row.serviceId = service.id)
    (owned : ∀ service ∈ plan.app.services, service.appId = plan.app.id)
    (stored : isRollback = false → ServicesStored plan.app world.db)
    (failed : ∀ message after, post (.error message) after)
    (saves : ∀ startedAt finishedAt stamped db, SameRecords world stamped →
      stamped.db.saveDeployment (finishedDeployment plan rollout.serviceDeployments startedAt
        finishedAt) = some db →
      (do
        sendProxyRefresh plan.runtime plan.app.id
        sweepOld plan.previous rollout.newContainerIds
        ExceptT.mk (Program.forEach (fun previous => (markDeploymentStopped previous).run)
          plan.previous) : Fallible Unit).run.Ensures can post { stamped with db := db }) :
    (finishRollout plan rollout isRollback).run.Ensures can post world := by
  unfold finishRollout
  apply (restore_ensures sound owned stored).run_bind
  intro result restored facts
  rcases result with message | value
  · exact failed message restored
  obtain ⟨records, storedServices⟩ := facts value rfl
  apply (query_ensures sound _ restored).run_bind
  intro result listed facts
  obtain ⟨rfl, exact_⟩ := facts
  rcases result with message | existing
  · exact failed message listed
  have isExisting : existing = listed.db.servicesByApp plan.app.id := exact_ existing rfl
  subst isExisting
  apply (quiet_ensures sound utc_now_quiet _).run_lift_bind
  intro startedAt _ first
  apply (quiet_ensures sound utc_now_quiet _).run_lift_bind
  intro finishedAt stamped second
  have quiet := quietly_same_records (first.trans second)
  have sameRecords : SameRecords world stamped :=
    ⟨quiet.deployments.trans records.deployments, quiet.containers.trans records.containers,
      quiet.serial.trans records.serial⟩
  apply always_run_bind.mpr
  rw [kept_rows named storedServices]
  apply (write_ensures sound _ stamped).mono
  intro result saved facts
  rcases result with message | value
  · exact failed message saved
  obtain ⟨db, applied, rfl⟩ := facts value rfl
  exact saves startedAt finishedAt stamped db sameRecords applied

/-- What the end of a rollout records, whatever becomes of the containers. -/
theorem finish_rollout_records {isRollback : Bool}
    (rowsOwned : ∀ row ∈ rollout.serviceDeployments, row.deploymentId = plan.deployment.id)
    (distinct : (rollout.serviceDeployments.map (·.id)).Nodup)
    (named : ∀ row ∈ rollout.serviceDeployments, ∃ service ∈ plan.app.services,
      row.serviceId = service.id)
    (previous : plan.previous = previousRunning start.db plan.app.id plan.deployment.id)
    (deployments : world.db.deployments = start.db.deployments)
    (owned : ∀ service ∈ plan.app.services, service.appId = plan.app.id)
    (stored : isRollback = false → ServicesStored plan.app world.db) :
    (finishRollout plan rollout isRollback).run.Ensures can (fun result after => ∀ value,
      result = .ok value → Recorded plan rollout.serviceDeployments plan.previous after ∧
        OfApp plan after) world := by
  apply finish_rollout_saves sound named owned stored
  · intro message after value isOk
    cases isOk
  intro startedAt finishedAt stamped db records applied
  obtain ⟨recorded, ofApp⟩ := recorded_of_finish rowsOwned distinct previous
    (records.deployments.trans deployments) applied
  apply (quiet_ensures sound (send_proxy_refresh_quiet _ _) _).run_lift_bind
  intro _ refreshed quietly
  have recorded := recorded_of_recordless recorded quietly.recordless
  have ofApp := of_app_of_recordless ofApp quietly.recordless
  apply (recordless_ensures sound (sweep_old_calls _ _) _).run_lift_bind
  intro _ swept recordless
  apply always_for_each (fun stopped after =>
    Recorded plan rollout.serviceDeployments stopped after ∧ OfApp plan after) _ []
  · exact ⟨recorded_of_recordless recorded recordless, of_app_of_recordless ofApp recordless⟩
  · intro state reached value _
    exact reached
  · intro before item rest state split reached
    have different : item.id ≠ plan.deployment.id := by
      have member : item ∈ plan.previous := by
        rw [split]
        simp
      rw [previous] at member
      exact previous_running_other member
    apply (mark_stopped_ensures sound item state).mono
    intro result after marked
    cases result with
    | ok value =>
        obtain ⟨stamped, db, saved, quietly, applied, sameId, isStopped, rfl⟩ := marked value rfl
        have recorded := recorded_of_recordless reached.1 quietly.recordless
        have ofApp := of_app_of_recordless reached.2 quietly.recordless
        have other : plan.deployment.id ≠ saved.id := by
          rw [sameId]
          exact different.symm
        exact ⟨recorded_of_stop applied recorded different sameId isStopped,
          of_app_of_save ofApp applied other⟩
    | error message =>
        intro _ isOk
        cases isOk

end Sound

section Containers

variable (environment : Environment can)
include environment

theorem finish_rollout_containers {isRollback : Bool}
    (deployed : Deployed plan sorted start (slots sorted) gone created rollout world)
    (fresh : FreshNames plan sorted start)
    (named : ∀ row ∈ rollout.serviceDeployments, ∃ service ∈ plan.app.services,
      row.serviceId = service.id)
    (owned : ∀ service ∈ plan.app.services, service.appId = plan.app.id)
    (stored : isRollback = false → ServicesStored plan.app world.db) :
    (finishRollout plan rollout isRollback).run.Ensures can (fun result after => ∀ value,
      result = .ok value →
        after.containers = keep (allOldContainers plan.previous) start.containers ++ created)
      world := by
  apply finish_rollout_saves environment.sound named owned stored
  · intro message after value isOk
    cases isOk
  intro startedAt finishedAt stamped db records applied
  have held : Held (keep gone start.containers ++ created) start.nextSerial
      { stamped with db := db } := by
    constructor
    · exact records.containers.trans deployed.held.same
    · intro container member
      rw [show ({ stamped with db := db } : World).nextSerial = stamped.nextSerial from rfl,
        records.serial]
      exact deployed.held.numbered container member
    · rw [show ({ stamped with db := db } : World).nextSerial = stamped.nextSerial from rfl,
        records.serial]
      exact deployed.held.later
  apply (quiet_ensures environment.sound (send_proxy_refresh_quiet _ _) _).run_lift_bind
  intro _ refreshed quietly
  have held := held_of_quietly held quietly
  apply always_run_lift_bind.mpr
  have disjoint : ∀ name ∈ allOldContainers plan.previous, name ∉ rollout.newContainerIds := by
    intro name isOld tracked
    exact fresh.unrecorded name (deployed.broken.new name tracked) isOld
  apply (sweep_old_ensures environment held disjoint).mono
  intro _ swept facts
  rw [swept_containers deployed fresh] at facts
  -- stopping the earlier deployments only writes records
  apply always_for_each (fun _ after =>
    after.containers = keep (allOldContainers plan.previous) start.containers ++ created) _ []
  · exact facts.2.same
  · intro state reached value _
    exact reached
  · intro before item rest state split reached
    apply (mark_stopped_ensures environment.sound item state).mono
    intro result after marked
    cases result with
    | ok value =>
        obtain ⟨stamped, db, saved, quietly, -, -, -, rfl⟩ := marked value rfl
        exact quietly.containers.trans reached
    | error message =>
        intro _ isOk
        cases isOk

theorem finish_rollout_ensures {isRollback : Bool}
    (deployed : Deployed plan sorted start (slots sorted) gone created rollout world)
    (fresh : FreshNames plan sorted start) (same : sorted.Perm plan.app.services)
    (previous : plan.previous = previousRunning start.db plan.app.id plan.deployment.id)
    (owned : ∀ service ∈ plan.app.services, service.appId = plan.app.id)
    (stored : isRollback = false → ServicesStored plan.app start.db) :
    (finishRollout plan rollout isRollback).run.Ensures can (fun result after => ∀ value,
      result = .ok value → Recorded plan rollout.serviceDeployments plan.previous after ∧
        after.containers = keep (allOldContainers plan.previous) start.containers ++ created)
      world := by
  have storedNow : isRollback = false → ServicesStored plan.app world.db := by
    intro notRollback service member
    rw [deployed.written.beside.services]
    exact stored notRollback service member
  have named : ∀ row ∈ rollout.serviceDeployments, ∃ service ∈ plan.app.services,
      row.serviceId = service.id := by
    intro row member
    obtain ⟨slot, inSlots, isRow⟩ := matched_right deployed.rows member
    exact ⟨slot.1, same.mem_iff.mp ((mem_slots sorted slot).mp inSlots).1, isRow.service⟩
  have records := finish_rollout_records environment.sound deployed.written.owned
    deployed.written.distinct named previous deployed.written.beside.deployments owned storedNow
  have containers := finish_rollout_containers environment deployed fresh named owned storedNow
  apply (records.and containers).mono
  intro result after facts value isOk
  exact ⟨(facts.1 value isOk).1, facts.2 value isOk⟩

end Containers

end Whole

theorem removing_environment : Environment removing.can :=
  environment_where fun _ _ _ allowed => Option.isNone_iff_eq_none.mp allowed

def OnlyRunning (appId id : Uuid) (db : Database) : Prop :=
  db.statusOf id = some .running ∧
    ∀ row ∈ db.deployments, row.appId = appId → row.status = .running → row.id = id

/-- The rows of the deployment: one for each replica, with its container, and one for
each cron job. -/
structure RowPerReplica (plan : Plan) (base : Nat) (world : World) : Prop where
  replica : ∀ service ∈ plan.app.services, service.isCronJob = false →
    ∀ replica < service.replicas, ∃ row container,
      (world.db.rowsOf plan.deployment.id).filter (fun row =>
        (row.serviceId, row.replicaIndex) = (service.id, replica)) = [row] ∧
      row.status = .running ∧ row.containerId = some container.name ∧
      container ∈ world.containers ∧ ContainerFor plan base (service, replica) container
  cron : ∀ service ∈ plan.app.services, service.isCronJob = true → ∃ row,
    (world.db.rowsOf plan.deployment.id).filter (·.serviceId = service.id) = [row] ∧
      row.status = .stopped
  only : ∀ row ∈ world.db.rowsOf plan.deployment.id, ∃ service ∈ plan.app.services,
    row.serviceId = service.id ∧ (service.isCronJob = false → row.replicaIndex < service.replicas)

def ReplicaName (plan : Plan) (name : String) : Prop :=
  ∃ service ∈ plan.app.services, service.isCronJob = false ∧
    ∃ replica < service.replicas, name = plan.name service replica

section Post

variable {plan : Plan} {sorted : List ContainerService} {start world final : World}
  {gone : List String} {created : List Container} {rollout : Rollout}

theorem row_key_of_slot (slot : Slot) (row : ServiceDeployment) (isRow : RowFor plan slot row) :
    (row.serviceId, row.replicaIndex) = slotKey slot := by
  rw [isRow.service, isRow.replica]
  rfl

theorem row_per_replica
    (deployed : Deployed plan sorted start (slots sorted) gone created rollout world)
    (same : sorted.Perm plan.app.services) (distinct : (plan.app.services.map (·.id)).Nodup)
    (rows : final.db.rowsOf plan.deployment.id = rollout.serviceDeployments)
    (containers : ∀ container ∈ created, container ∈ final.containers) :
    RowPerReplica plan start.nextSerial final := by
  have once : ((slots sorted).map slotKey).Nodup := slots_once ((same.map _).nodup_iff.mpr distinct)
  constructor
  · intro service member replicated replica bound
    have slot : (service, replica) ∈ slots sorted :=
      (mem_slots sorted _).mpr ⟨same.mem_iff.mpr member, Or.inr ⟨replicated, bound⟩⟩
    obtain ⟨row, isRow, only⟩ := matched_once deployed.rows row_key_of_slot once slot
    have started : (service, replica) ∈ (slots sorted).filter fun slot => !slot.1.isCronJob :=
      List.mem_filter.mpr ⟨slot, by simpa using replicated⟩
    obtain ⟨container, isCreated, made⟩ := matched_left deployed.containers started
    obtain ⟨running, named⟩ := isRow.running replicated
    refine ⟨row, container, ?_, running, ?_, containers container isCreated, made⟩
    · rw [rows]
      exact only
    · rw [made.name]
      exact named
  · intro service member isCron
    have slot : (service, 0) ∈ slots sorted :=
      (mem_slots sorted _).mpr ⟨same.mem_iff.mpr member, Or.inl ⟨isCron, rfl⟩⟩
    obtain ⟨row, isRow, only⟩ := matched_once deployed.rows row_key_of_slot once slot
    refine ⟨row, ?_, (isRow.scheduled isCron).1⟩
    rw [rows, ← only]
    apply List.filter_congr
    intro other stored
    obtain ⟨owner, inSlots, isOther⟩ := matched_right deployed.rows stored
    obtain ⟨isService, kind⟩ := (mem_slots sorted owner).mp inSlots
    by_cases sameId : other.serviceId = service.id
    · have isOwner : owner.1 = service := by
        apply List.inj_on_of_nodup_map distinct (same.mem_iff.mp isService) member
        rw [← isOther.service, sameId]
      have isZero : other.replicaIndex = 0 := by
        rw [isOther.replica]
        rcases kind with ⟨-, isZero⟩ | ⟨replicated, -⟩
        · exact isZero
        · rw [isOwner, isCron] at replicated
          cases replicated
      simp [slotKey, sameId, isZero]
    · simp [slotKey, sameId]
  · intro row stored
    rw [rows] at stored
    obtain ⟨slot, inSlots, isRow⟩ := matched_right deployed.rows stored
    obtain ⟨isService, kind⟩ := (mem_slots sorted slot).mp inSlots
    refine ⟨slot.1, same.mem_iff.mp isService, isRow.service, ?_⟩
    intro replicated
    rw [isRow.replica]
    rcases kind with ⟨isCron, -⟩ | ⟨-, bound⟩
    · rw [isCron] at replicated
      cases replicated
    · exact bound

theorem created_iff_replica
    (deployed : Deployed plan sorted start (slots sorted) gone created rollout world)
    (same : sorted.Perm plan.app.services) (name : String) :
    (∃ container ∈ created, container.name = name) ↔ ReplicaName plan name := by
  constructor
  · intro exists_
    obtain ⟨container, member, named⟩ := exists_
    obtain ⟨slot, inSlots, made⟩ := matched_right deployed.containers member
    obtain ⟨isSlot, started⟩ := List.mem_filter.mp inSlots
    obtain ⟨isService, kind⟩ := (mem_slots sorted slot).mp isSlot
    rcases kind with ⟨isCron, -⟩ | ⟨replicated, bound⟩
    · simp [isCron] at started
    · exact ⟨slot.1, same.mem_iff.mp isService, replicated, slot.2, bound, named ▸ made.name⟩
  · intro isReplica
    obtain ⟨service, member, replicated, replica, bound, named⟩ := isReplica
    have slot : (service, replica) ∈ (slots sorted).filter fun slot => !slot.1.isCronJob := by
      rw [List.mem_filter]
      exact ⟨(mem_slots sorted _).mpr ⟨same.mem_iff.mpr member, Or.inr ⟨replicated, bound⟩⟩,
        by simpa using replicated⟩
    obtain ⟨container, isCreated, made⟩ := matched_left deployed.containers slot
    exact ⟨container, isCreated, made.name.trans named.symm⟩

end Post

section Call

variable {runtime : Runtime} {app : App} {deployment : Deployment} {networkName : String}
  {images : ServiceImages} {sharedEnv : List (String × String)} {strategy : RolloutStrategy}
  {isRollback : Bool} {world : World}

/-- What holds after a call that returns `Ok`. -/
structure Succeeded (plan : Plan) (start final : World) : Prop where
  running : OnlyRunning plan.app.id plan.deployment.id final.db
  rows : RowPerReplica plan start.nextSerial final
  containers : ∀ name, name ∈ allOldContainers plan.previous ∨ ReplicaName plan name →
    (final.hasContainer name = true ↔ ReplicaName plan name)

theorem deploy_services_succeeded (distinct : (app.services.map (·.id)).Nodup)
    (owned : ∀ service ∈ app.services, service.appId = app.id)
    (stored : isRollback = false → ServicesStored app world.db)
    (fresh : FreshNames (planAt runtime app deployment networkName images sharedEnv strategy world)
      app.services world)
    (numbered : ∀ container ∈ world.containers, container.serial < world.nextSerial) :
    (deployServices runtime app deployment networkName images sharedEnv strategy
      isRollback).run.Ensures removing.can (fun result after => ∀ value, result = .ok value →
        Succeeded (planAt runtime app deployment networkName images sharedEnv strategy world) world
          after) world := by
  unfold deployServices
  apply (sort_services_ensures removing_environment.sound app.services world).run_bind
  intro sorted after facts
  obtain ⟨rfl, reordered⟩ := facts
  rcases sorted with message | sorted
  · intro _ isOk
    cases isOk
  have same := reordered sorted rfl
  have freshSorted := fresh_names_perm same fresh
  apply (previous_running_ensures removing_environment.sound app.id deployment.id _).run_bind
  intro previous start facts
  obtain ⟨rfl, listed⟩ := facts
  rcases previous with message | previous
  · intro _ isOk
    cases isOk
  have isPrevious := listed previous rfl
  subst isPrevious
  apply (rollout_services_ensures removing_environment freshSorted numbered).run_lift_bind
  intro result rolled outcome
  obtain ⟨gone, created, outcome⟩ := outcome
  rcases result with ⟨outcomeOf, rollout⟩
  cases outcomeOf with
  | error message =>
      apply always_run_lift_bind.mpr
      have undone := undo_tracked rollout
      apply (Calls.relates undone (fun _ _ _ _ _ _ => trivial) (fun _ => trivial)
        (fun _ _ _ _ _ => trivial) rolled).mono
      intro _ _ _
      apply always_run_throw.mpr
      intro _ isOk
      cases isOk
  | ok _ =>
      have deployed : Deployed (planAt runtime app deployment networkName images sharedEnv strategy
          start) sorted start (slots sorted) gone created rollout rolled := outcome
      apply (finish_rollout_ensures removing_environment deployed freshSorted same rfl owned
        stored).mono
      intro result final facts value isOk
      obtain ⟨recorded, containers⟩ := facts value isOk
      have isCreated : ∀ container ∈ created, container ∈ final.containers := by
        intro container member
        rw [containers]
        exact List.mem_append_right _ member
      refine ⟨⟨recorded.status, ?_⟩, row_per_replica deployed same distinct recorded.rows isCreated,
        ?_⟩
      · intro row member sameApp running
        rcases recorded.others row member sameApp running with own | ⟨left, listed, -, notDone⟩
        · exact own
        · exact absurd listed notDone
      · intro name known
        rw [← created_iff_replica deployed same name, has_container_iff, containers]
        constructor
        · intro exists_
          obtain ⟨container, member, named⟩ := exists_
          rcases List.mem_append.mp member with kept | new
          · rcases known with isOld | isReplica
            · have notOld := (List.mem_filter.mp kept).2
              rw [named] at notOld
              simp [isOld] at notOld
            · exact (created_iff_replica deployed same name).mpr isReplica
          · exact ⟨container, new, named⟩
        · intro exists_
          obtain ⟨container, member, named⟩ := exists_
          exact ⟨container, List.mem_append_right _ member, named⟩

/-- A call that returns `Ok`: the deployment is the only running one of the app, it has
one running row and container per replica and one stopped row per cron job, and of the
containers recorded before or created now exactly the created ones are left. -/
theorem successful_rollout (distinct : (app.services.map (·.id)).Nodup)
    (owned : ∀ service ∈ app.services, service.appId = app.id)
    (stored : isRollback = false → ServicesStored app world.db)
    (fresh : FreshNames (planAt runtime app deployment networkName images sharedEnv strategy world)
      app.services world)
    (numbered : ∀ container ∈ world.containers, container.serial < world.nextSerial)
    {final : World}
    (returned : Runs removing.can (deployServices runtime app deployment networkName images
      sharedEnv strategy isRollback).run world (.ok ()) final) :
    Succeeded (planAt runtime app deployment networkName images sharedEnv strategy world) world
      final :=
  (deploy_services_succeeded distinct owned stored fresh numbered).runs returned () rfl

end Call

/-- Two replicas and a cron job, over the world of `demoServing`. -/
def demoScheduled : App :=
  { demoReplicas with services := demoReplicas.services ++
      [{ ContainerService.new ⟨4⟩ 0 ⟨1⟩ "nightly" "busybox:1" 0 with
        serviceType := .cronJob
        schedule := some "0 3 * * *" }] }

def demoScheduledWorld : World :=
  { demoServing with db := { demoServing.db with services := demoScheduled.services } }

theorem successful_rollout_scheduled :
    ∃ final, Runs removing.can (deployServices demoRuntime demoScheduled demoDeployment
        demoScheduled.networkName [(⟨2⟩, "nginx:1"), (⟨4⟩, "busybox:1")] [] .stopFirst false).run
        demoScheduledWorld (.ok ()) final ∧ final.containers.length = 2 ∧
      Succeeded (planAt demoRuntime demoScheduled demoDeployment demoScheduled.networkName
        [(⟨2⟩, "nginx:1"), (⟨4⟩, "busybox:1")] [] .stopFirst demoScheduledWorld) demoScheduledWorld
        final := by
  have runs : ((deployServices demoRuntime demoScheduled demoDeployment demoScheduled.networkName
      [(⟨2⟩, "nginx:1"), (⟨4⟩, "busybox:1")] [] .stopFirst false).run.runChecked removing calm
        demoScheduledWorld).map (fun last => (last.1.toOption, last.2.containers.length)) =
          some (some (), 2) := by
    decide +kernel
  obtain ⟨⟨result, final⟩, executed, facts⟩ := Option.map_eq_some_iff.mp runs
  obtain ⟨succeeded, left⟩ := Prod.mk.inj facts
  cases result with
  | error message => cases succeeded
  | ok value =>
      have run := Runs.of_checked executed
      have stored : ServicesStored demoScheduled demoScheduledWorld.db := by
        unfold ServicesStored
        decide
      exact ⟨final, run, left, successful_rollout (by decide) (by decide) (fun _ => stored)
        (fresh_names_of_each (by decide +kernel)) (by decide) run⟩

end Containr.Rollout
