import Containr.Steps
import Containr.Worker.Footprint

/-!
# What the steps of a rollout leave alone

`Beside id` is the store outside one deployment: a rollout writes only service
deployments of its own record before it is finished. `Quietly` is what a helper
without records or containers changes: log lines and drawn ids.
-/

namespace Containr.Rollout

open Containr.Effect Containr.Effect.Program Containr.Worker

structure Beside (id : Uuid) (before after : World) : Prop where
  apps : after.db.apps = before.db.apps
  services : after.db.services = before.db.services
  deployments : after.db.deployments = before.db.deployments
  registries : after.db.registries = before.db.registries
  rows : ∀ other, other ≠ id → after.db.rowsOf other = before.db.rowsOf other

theorem beside_rfl (id : Uuid) (world : World) : Beside id world world :=
  ⟨rfl, rfl, rfl, rfl, fun _ _ => rfl⟩

variable {id : Uuid} {before after : World}

theorem beside_of_db (same : after.db = before.db) : Beside id before after := by
  constructor
  · rw [same]
  · rw [same]
  · rw [same]
  · rw [same]
  · intro other _
    rw [same]

theorem Beside.trans {first second third : World} (left : Beside id first second)
    (right : Beside id second third) : Beside id first third where
  apps := right.apps.trans left.apps
  services := right.services.trans left.services
  deployments := right.deployments.trans left.deployments
  registries := right.registries.trans left.registries
  rows other different := (right.rows other different).trans (left.rows other different)

variable {op : Op} {answer : op.Answer}

theorem within_beside {names : String → Prop}
    (within : op.Within names fun row => row.deploymentId = id)
    (possible : Possible op before answer after) : Beside id before after := by
  rcases possible_written possible with same | ⟨change, db, rfl, applied, rfl⟩
  · exact beside_of_db same
  · cases change with
    | saveServiceDeployment row =>
        refine ⟨?_, ?_, ?_, ?_, ?_⟩
        · rw [Database.save_service_deployment_shape applied]
        · rw [Database.save_service_deployment_shape applied]
        · rw [Database.save_service_deployment_shape applied]
        · rw [Database.save_service_deployment_shape applied]
        · intro other different
          have owner : row.deploymentId = id := within
          exact Database.save_service_deployment_rows_other applied (owner ▸ different)
    | appendDeploymentLog other line =>
        have shape := Database.append_deployment_log_shape applied
        refine ⟨?_, ?_, ?_, ?_, ?_⟩
        · rw [shape]
        · rw [shape]
        · rw [shape]
        · rw [shape]
        · intro other _
          rw [shape]
          rfl
    | saveApp app => exact within.elim
    | deleteApp app => exact within.elim
    | saveDeployment deployment => exact within.elim
    | deleteDeployment deployment => exact within.elim

structure Recordless (before after : World) : Prop where
  beside : ∀ id, Beside id before after
  table : after.db.serviceDeployments = before.db.serviceDeployments
  issued : before.issued ⊆ after.issued

theorem recordless_rfl (world : World) : Recordless world world :=
  ⟨fun id => beside_rfl id world, rfl, fun _ member => member⟩

theorem Recordless.trans {first second third : World} (left : Recordless first second)
    (right : Recordless second third) : Recordless first third where
  beside id := (left.beside id).trans (right.beside id)
  table := right.table.trans left.table
  issued _ member := right.issued (left.issued member)

theorem within_recordless {names : String → Prop} (within : op.Within names fun _ => False)
    (possible : Possible op before answer after) : Recordless before after := by
  constructor
  · intro id
    have owned : op.Within names fun row => row.deploymentId = id :=
      Op.Within.mono (fun _ named => named) (fun _ absurd => absurd.elim) op within
    exact within_beside owned possible
  · rcases possible_written possible with same | ⟨change, db, rfl, applied, rfl⟩
    · rw [same]
    · cases change with
      | appendDeploymentLog id line => rw [Database.append_deployment_log_shape applied]
      | saveServiceDeployment row => exact within.elim
      | saveApp app => exact within.elim
      | deleteApp app => exact within.elim
      | saveDeployment deployment => exact within.elim
      | deleteDeployment deployment => exact within.elim
  · exact possible_issued possible

/-- Nothing but log lines and drawn ids. -/
structure Quietly (before after : World) : Prop where
  recordless : Recordless before after
  containers : after.containers = before.containers
  serial : after.nextSerial = before.nextSerial

theorem quietly_rfl (world : World) : Quietly world world := ⟨recordless_rfl world, rfl, rfl⟩

theorem Quietly.trans {first second third : World} (left : Quietly first second)
    (right : Quietly second third) : Quietly first third where
  recordless := left.recordless.trans right.recordless
  containers := right.containers.trans left.containers
  serial := right.serial.trans left.serial

theorem docker_untouched (quiet : op.Quiet) (possible : Possible op before answer after) :
    after.containers = before.containers ∧ after.nextSerial = before.nextSerial := by
  by_cases isDocker : ∃ request, op = .docker request
  · obtain ⟨request, rfl⟩ := isDocker
    rcases possible_docker possible with served | ⟨rfl, -⟩
    · cases request with
      | inspectContainer name =>
          cases served
          exact ⟨rfl, rfl⟩
      | listContainers =>
          cases served
          exact ⟨rfl, rfl⟩
      | startContainer serial =>
          obtain ⟨name, absurd⟩ := quiet
          exact absurd.elim
      | createContainer name body => exact quiet.elim
      | stopContainer name => exact quiet.elim
      | removeContainer name => exact quiet.elim
    · exact ⟨rfl, rfl⟩
  · exact (possible_untouched possible).containers fun request same => isDocker ⟨request, same⟩

theorem quiet_step (quiet : op.Quiet) (possible : Possible op before answer after) :
    Quietly before after :=
  ⟨within_recordless quiet possible, (docker_untouched quiet possible).1,
    (docker_untouched quiet possible).2⟩

section Programs

variable {Value : Type} {can : Behaviour Effects World} {program : Sys Value}

variable
  (sound : ∀ op before answer after, can op before answer after → Possible op before answer after)
include sound

/-- Saving records leaves the containers alone. -/
theorem writes_ensure {program : Sys Value}
    (writes : program.Calls fun op => ∃ change, op = Op.write change) (world : World) :
    program.Ensures can (fun _ after => after.containers = world.containers) world := by
  have containers : ∀ op before answer after, (∃ change, op = Op.write change) →
      can op before answer after → after.containers = before.containers := by
    intro op before answer after isWrite possible
    obtain ⟨change, rfl⟩ := isWrite
    have untouched := possible_untouched (sound _ _ _ _ possible)
    exact (untouched.containers fun _ other => by cases other).1
  let Alike (before after : World) : Prop := after.containers = before.containers
  have trans : ∀ first second third, Alike first second → Alike second third →
      Alike first third := fun _ _ _ earlier later => later.trans earlier
  exact Calls.relates writes containers (fun _ => rfl) trans world

theorem quiet_ensures (quiet : program.Calls Op.Quiet) (world : World) :
    program.Ensures can (fun _ after => Quietly world after) world :=
  Calls.relates quiet
    (fun op before answer after allowed possible =>
      quiet_step allowed (sound op before answer after possible))
    quietly_rfl (fun _ _ _ => Quietly.trans) world

theorem recordless_ensures {names : String → Prop}
    (within : program.Calls (Op.Within names fun _ => False)) (world : World) :
    program.Ensures can (fun _ after => Recordless world after) world :=
  Calls.relates within
    (fun op before answer after allowed possible =>
      within_recordless allowed (sound op before answer after possible))
    recordless_rfl (fun _ _ _ => Recordless.trans) world

theorem beside_ensures {id : Uuid} {names : String → Prop}
    (within : program.Calls (Op.Within names fun row => row.deploymentId = id)) (world : World) :
    program.Ensures can (fun _ after => Beside id world after) world :=
  Calls.relates within
    (fun op before answer after allowed possible =>
      within_beside allowed (sound op before answer after possible))
    (beside_rfl id) (fun _ _ _ => Beside.trans) world

end Programs

/-- What `list_deployments_by_app` reads when nothing happens in between. -/
def listDeployments (db : Database) (appId : Uuid) : List Deployment :=
  (db.deploymentRowsByApp appId).map fun row =>
    { row with serviceDeployments := db.serviceDeploymentsOf row.id }

def previousRunning (db : Database) (appId current : Uuid) : List Deployment :=
  (listDeployments db appId).filter fun deployment =>
    deployment.id ≠ current && deployment.status = .running

section Reads

variable {can : Behaviour Effects World}
  (sound : ∀ op before answer after, can op before answer after → Possible op before answer after)
include sound

theorem query_ensures (wanted : Query) (world : World) :
    (Store.query wanted).run.Ensures can (fun result after => after = world ∧
      ∀ row, result = .ok row → row = wanted.read world.db) world := by
  apply always_op trivial
  intro answer after possible
  obtain ⟨same, read⟩ := possible_query (sound _ _ _ _ possible)
  refine ⟨same, fun row isRow => ?_⟩
  rcases read with read | ⟨message, failed⟩
  · exact Except.ok.inj (isRow.symm.trans read)
  · rw [failed] at isRow
    cases isRow

theorem write_ensures (change : Write) (world : World) :
    (Store.write change).run.Ensures can (fun result after => ∀ value, result = .ok value →
      ∃ db, change.apply world.db = some db ∧ after = { world with db := db }) world := by
  apply always_op trivial
  intro answer after possible value isOk
  rcases possible_write (sound _ _ _ _ possible) with ⟨-, applied⟩ | ⟨-, message, failed⟩
  · exact applied
  · rw [failed] at isOk
    cases isOk

theorem get_deployment_ensures (id : Uuid) (world : World) :
    (Store.getDeployment id).run.Ensures can (fun result after => after = world ∧
      ∀ loaded, result = .ok loaded → loaded = world.db.getDeployment id) world := by
  unfold Store.getDeployment
  apply (query_ensures sound _ world).run_bind
  intro row after read
  obtain ⟨rfl, exact_⟩ := read
  rcases row with message | row
  · refine ⟨rfl, fun loaded same => ?_⟩
    cases same
  have isRow : after.db.deploymentRow id = row := (exact_ row rfl).symm
  cases row with
  | none =>
      apply always_run_pure.mpr
      refine ⟨rfl, fun loaded same => ?_⟩
      cases same
      rw [Database.getDeployment, isRow]
      rfl
  | some row =>
      apply (query_ensures sound _ after).run_bind
      intro rows next read
      obtain ⟨rfl, children⟩ := read
      rcases rows with message | rows
      · refine ⟨rfl, fun loaded same => ?_⟩
        cases same
      · apply always_run_pure.mpr
        refine ⟨rfl, fun loaded same => ?_⟩
        cases same
        rw [Database.getDeployment, isRow, show rows = _ from children rows rfl]
        rfl

theorem get_app_ensures (id : Uuid) (world : World) :
    (Store.getApp id).run.Ensures can (fun result after => after = world ∧
      ∀ loaded app, result = .ok loaded → loaded = some app → app.id = id) world := by
  unfold Store.getApp
  apply (query_ensures sound _ world).run_bind
  intro row after read
  obtain ⟨rfl, exact_⟩ := read
  rcases row with message | row
  · refine ⟨rfl, fun loaded app same => ?_⟩
    cases same
  have isRow : after.db.appRow id = row := (exact_ row rfl).symm
  cases row with
  | none =>
      apply always_run_pure.mpr
      refine ⟨rfl, fun loaded app same isApp => ?_⟩
      cases same
      cases isApp
  | some row =>
      apply (query_ensures sound _ after).run_bind
      intro services next read
      obtain ⟨rfl, -⟩ := read
      rcases services with message | services
      · refine ⟨rfl, fun loaded app same => ?_⟩
        cases same
      · apply always_run_pure.mpr
        refine ⟨rfl, fun loaded app same isApp => ?_⟩
        cases same
        cases isApp
        exact (lookup_eq_some_mem isRow).2

theorem with_service_deployments_ensures (rows : List Deployment) (world : World) :
    (Store.withServiceDeployments rows).run.Ensures can (fun result after => after = world ∧
      ∀ listed, result = .ok listed → listed = rows.map fun row =>
        { row with serviceDeployments := world.db.serviceDeploymentsOf row.id }) world := by
  induction rows with
  | nil =>
      apply always_run_pure.mpr
      refine ⟨rfl, fun listed same => ?_⟩
      cases same
      rfl
  | cons row rest ih =>
      unfold Store.withServiceDeployments
      apply (query_ensures sound _ world).run_bind
      intro children after read
      obtain ⟨rfl, exact_⟩ := read
      rcases children with message | children
      · refine ⟨rfl, fun listed same => ?_⟩
        cases same
      apply ih.run_bind
      intro others next read
      obtain ⟨rfl, restRead⟩ := read
      rcases others with message | others
      · refine ⟨rfl, fun listed same => ?_⟩
        cases same
      · apply always_run_pure.mpr
        refine ⟨rfl, fun listed same => ?_⟩
        cases same
        rw [restRead others rfl, List.map_cons, show children = _ from exact_ children rfl]
        rfl

theorem previous_running_ensures (appId current : Uuid) (world : World) :
    (getPreviousRunningDeployments appId current).run.Ensures can (fun result after =>
      after = world ∧ ∀ previous, result = .ok previous →
        previous = previousRunning world.db appId current) world := by
  unfold getPreviousRunningDeployments Store.listDeploymentsByApp
  apply always_run_bind.mpr
  apply always_run_bind.mpr
  apply (query_ensures sound _ world).mono
  intro rows after read
  obtain ⟨rfl, exact_⟩ := read
  rcases rows with message | rows
  · refine ⟨rfl, fun previous same => ?_⟩
    cases same
  apply (with_service_deployments_ensures sound rows _).mono
  intro listed next read
  obtain ⟨rfl, joined⟩ := read
  rcases listed with message | listed
  · refine ⟨rfl, fun previous same => ?_⟩
    cases same
  · apply always_run_pure.mpr
    refine ⟨rfl, fun previous same => ?_⟩
    cases same
    rw [joined listed rfl, show rows = _ from exact_ rows rfl]
    rfl

end Reads

end Containr.Rollout
