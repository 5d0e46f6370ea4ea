import Containr.Effect.Table
import Containr.Models

/-!
# The SQLite store of `containr-common/src/db.rs`

Each definition is one statement or one transaction, the unit other tasks can
interleave with: the store has a single connection. `none` is a failed
constraint, which rolls the transaction back. Rows of `deployments` and `apps`
carry no child rows; `get_deployment` and `get_app` join them with a second
statement and are programs (see `Containr.System`).

The id of a service deployment is drawn once, for one deployment, so a conflict
on it is a conflict inside that deployment: the row key is the pair.
-/

namespace Containr

open Containr.Effect

structure Database where
  apps : List App
  services : List ContainerService
  deployments : List Deployment
  serviceDeployments : List ServiceDeployment
  deploymentLogs : List (Uuid × String)
  registries : List ContainerRegistry
deriving DecidableEq, Repr

namespace Database

def empty : Database := ⟨[], [], [], [], [], []⟩

def appRow (db : Database) (id : Uuid) : Option App := lookup (·.id) id db.apps

/-- `ORDER BY created_at DESC`. -/
def appRows (db : Database) : List App :=
  db.apps.insertionSort fun left right => right.createdAt ≤ left.createdAt

def serviceRow (db : Database) (id : Uuid) : Option ContainerService := lookup (·.id) id db.services

/-- `ORDER BY name ASC`. -/
def servicesByApp (db : Database) (appId : Uuid) : List ContainerService :=
  (db.services.filter (·.appId = appId)).insertionSort fun left right =>
    left.name.toList ≤ right.name.toList

def deploymentRow (db : Database) (id : Uuid) : Option Deployment :=
  lookup (·.id) id db.deployments

/-- `ORDER BY created_at DESC`. -/
def deploymentRowsByApp (db : Database) (appId : Uuid) : List Deployment :=
  (db.deployments.filter (·.appId = appId)).insertionSort fun left right =>
    right.createdAt ≤ left.createdAt

/-- The order of `list_service_deployments`: service id, then replica. -/
def rowBefore (left right : ServiceDeployment) : Prop :=
  left.serviceId.value < right.serviceId.value ∨
    left.serviceId = right.serviceId ∧ left.replicaIndex ≤ right.replicaIndex

instance : DecidableRel rowBefore := fun left right =>
  inferInstanceAs (Decidable (left.serviceId.value < right.serviceId.value ∨
    left.serviceId = right.serviceId ∧ left.replicaIndex ≤ right.replicaIndex))

def rowsOf (db : Database) (deploymentId : Uuid) : List ServiceDeployment :=
  db.serviceDeployments.filter (·.deploymentId = deploymentId)

def serviceDeploymentsOf (db : Database) (deploymentId : Uuid) : List ServiceDeployment :=
  (db.rowsOf deploymentId).insertionSort rowBefore

/-- What `get_deployment` returns when nothing happens between its statements. -/
def getDeployment (db : Database) (id : Uuid) : Option Deployment :=
  (db.deploymentRow id).map fun row =>
    { row with serviceDeployments := db.serviceDeploymentsOf id }

/-- What `get_app` returns when nothing happens between its statements. -/
def getApp (db : Database) (id : Uuid) : Option App :=
  (db.appRow id).map fun row => { row with services := db.servicesByApp id }

/-- `ORDER BY created_at ASC`. -/
def registriesByOwner (db : Database) (ownerId : Uuid) : List ContainerRegistry :=
  (db.registries.filter (·.ownerId = ownerId)).insertionSort fun left right =>
    left.createdAt ≤ right.createdAt

def statusOf (db : Database) (id : Uuid) : Option DeploymentStatus :=
  (db.deploymentRow id).map (·.status)

def rowKey (row : ServiceDeployment) : Uuid × Uuid := (row.id, row.deploymentId)

/-- The stored columns of a deployment: the message column is `NOT NULL` and an
empty message reads back as `None`. -/
def storedDeployment (deployment : Deployment) : Deployment :=
  { deployment with
    commitMessage := deployment.commitMessage.filter fun message => !message.isEmpty
    serviceDeployments := [] }

def hasApp (db : Database) (id : Uuid) : Bool := db.apps.any (·.id = id)

def hasService (db : Database) (id : Uuid) : Bool := db.services.any (·.id = id)

def hasDeployment (db : Database) (id : Uuid) : Bool := db.deployments.any (·.id = id)

/-- The foreign keys of the rows `save_deployment` writes. -/
def deploymentReferencesHold (db : Database) (deployment : Deployment) : Bool :=
  db.hasApp deployment.appId &&
    deployment.rollbackFromDeploymentId.all
      (fun source => source = deployment.id || db.hasDeployment source) &&
    deployment.serviceDeployments.all fun row => db.hasService row.serviceId

def saveDeployment (db : Database) (deployment : Deployment) : Option Database :=
  if db.deploymentReferencesHold deployment then
    let cleared := db.serviceDeployments.filter (·.deploymentId ≠ deployment.id)
    some { db with
      deployments := upsert (·.id) (storedDeployment deployment) db.deployments
      serviceDeployments := deployment.serviceDeployments.foldl
        (fun rows row => upsert rowKey { row with deploymentId := deployment.id } rows) cleared }
  else none

def saveServiceDeployment (db : Database) (row : ServiceDeployment) : Option Database :=
  if db.hasService row.serviceId && db.hasDeployment row.deploymentId then
    some { db with serviceDeployments := upsert rowKey row db.serviceDeployments }
  else none

/-- `DELETE FROM deployments`, with its cascades and `ON DELETE SET NULL`. -/
def deleteDeployment (db : Database) (id : Uuid) : Database :=
  { db with
    deployments := (db.deployments.filter (·.id ≠ id)).map fun row =>
      if row.rollbackFromDeploymentId = some id then
        { row with rollbackFromDeploymentId := none } else row
    serviceDeployments := db.serviceDeployments.filter (·.deploymentId ≠ id)
    deploymentLogs := db.deploymentLogs.filter (·.1 ≠ id) }

/-- The row written for an app: `created_at` is not in the update list. -/
def storedApp (db : Database) (app : App) : App :=
  { app with
    services := []
    createdAt := ((db.appRow app.id).map (·.createdAt)).getD app.createdAt }

/-- Upserts the app and its services, then deletes every other service row of
the app; a deleted service takes its service deployments with it. The token
column is `NOT NULL`. -/
def saveApp (db : Database) (app : App) : Option Database :=
  let apps := upsert (·.id) (db.storedApp app) db.apps
  if app.deployWebhookToken.isSome &&
      app.services.all (fun service => apps.any (·.id = service.appId)) then
    let services := app.services.foldl (fun rows service => upsert (·.id) service rows) db.services
    let kept := app.services.map (·.id)
    let gone := (services.filter (·.appId = app.id)).map (·.id) |>.filter (· ∉ kept)
    some { db with
      apps := apps
      services := services.filter (·.id ∉ gone)
      serviceDeployments := db.serviceDeployments.filter (·.serviceId ∉ gone) }
  else none

/-- `DELETE FROM apps` and everything that references the app. -/
def deleteAppRow (db : Database) (id : Uuid) : Database :=
  let services := (db.services.filter (·.appId = id)).map (·.id)
  let deployments := (db.deployments.filter (·.appId = id)).map (·.id)
  { db with
    apps := db.apps.filter (·.id ≠ id)
    services := db.services.filter (·.appId ≠ id)
    deployments := db.deployments.filter (·.appId ≠ id)
    serviceDeployments := db.serviceDeployments.filter fun row =>
      row.serviceId ∉ services ∧ row.deploymentId ∉ deployments
    deploymentLogs := db.deploymentLogs.filter (·.1 ∉ deployments) }

def appendDeploymentLog (db : Database) (id : Uuid) (line : String) : Option Database :=
  if db.hasDeployment id then
    some { db with deploymentLogs := db.deploymentLogs ++ [(id, line)] }
  else none

variable {db : Database} {deployment : Deployment} {after : Database}

theorem save_deployment_shape (saved : db.saveDeployment deployment = some after) :
    after.apps = db.apps ∧ after.services = db.services ∧
      after.deployments = upsert (·.id) (storedDeployment deployment) db.deployments ∧
      after.deploymentLogs = db.deploymentLogs := by
  unfold saveDeployment at saved
  split_ifs at saved
  cases saved
  exact ⟨rfl, rfl, rfl, rfl⟩

theorem save_deployment_status_same (saved : db.saveDeployment deployment = some after) :
    after.statusOf deployment.id = some deployment.status := by
  obtain ⟨-, -, deployments, -⟩ := save_deployment_shape saved
  have row : lookup (·.id) deployment.id (upsert (·.id) (storedDeployment deployment) db.deployments)
      = some (storedDeployment deployment) :=
    lookup_upsert_same (·.id) (storedDeployment deployment) db.deployments
  rw [statusOf, deploymentRow, deployments, row]
  rfl

variable {id : Uuid}

theorem save_deployment_row_other (saved : db.saveDeployment deployment = some after)
    (different : id ≠ deployment.id) : after.deploymentRow id = db.deploymentRow id := by
  obtain ⟨-, -, deployments, -⟩ := save_deployment_shape saved
  rw [deploymentRow, deployments]
  exact lookup_upsert_other (·.id) (storedDeployment deployment) db.deployments id different

theorem rows_fold_other (rows : List ServiceDeployment) (owner id : Uuid) (different : id ≠ owner)
    (table : List ServiceDeployment) :
    (rows.foldl (fun table row => upsert rowKey { row with deploymentId := owner } table)
        table).filter (·.deploymentId = id) =
      table.filter (·.deploymentId = id) := by
  induction rows generalizing table with
  | nil => rfl
  | cons row rows ih =>
      rw [List.foldl_cons, ih]
      apply filter_upsert_of_disjoint
      intro other sameKey
      have owned : other.deploymentId = owner := congrArg Prod.snd sameKey
      simpa [owned] using different.symm

theorem save_deployment_rows_other (saved : db.saveDeployment deployment = some after)
    (different : id ≠ deployment.id) : after.rowsOf id = db.rowsOf id := by
  unfold saveDeployment at saved
  split_ifs at saved
  cases saved
  rw [rowsOf, rowsOf, rows_fold_other _ _ _ different, List.filter_filter]
  apply List.filter_congr
  intro row _
  by_cases same : row.deploymentId = id
  · simp [same, different]
  · simp [same]

theorem rows_fold_append (rows : List ServiceDeployment) (owner : Uuid)
    (owned : ∀ row ∈ rows, row.deploymentId = owner) (distinct : (rows.map (·.id)).Nodup)
    (table : List ServiceDeployment)
    (new : ∀ row ∈ table, row.deploymentId = owner → row.id ∉ rows.map (·.id)) :
    rows.foldl (fun table row => upsert rowKey { row with deploymentId := owner } table) table =
      table ++ rows := by
  induction rows generalizing table with
  | nil => simp
  | cons row rows ih =>
      rw [List.map_cons, List.nodup_cons] at distinct
      have same : { row with deploymentId := owner } = row := by
        rw [← owned row List.mem_cons_self]
      have absent : ∀ other ∈ table, rowKey other ≠ rowKey row := by
        intro other stored sameKey
        have sameOwner : other.deploymentId = owner :=
          (congrArg Prod.snd sameKey).trans (owned row List.mem_cons_self)
        apply new other stored sameOwner
        have sameId : other.id = row.id := congrArg Prod.fst sameKey
        rw [sameId]
        exact List.mem_map_of_mem List.mem_cons_self
      rw [List.foldl_cons, same, upsert_new rowKey row table absent,
        ih (fun other member => owned other (List.mem_cons_of_mem _ member)) distinct.2]
      · simp
      · intro other stored sameOwner
        rcases List.mem_append.mp stored with old | last
        · intro inRest
          exact new other old sameOwner (List.mem_cons_of_mem _ inRest)
        · rw [List.mem_singleton.mp last]
          exact distinct.1

theorem save_deployment_rows_same (saved : db.saveDeployment deployment = some after)
    (owned : ∀ row ∈ deployment.serviceDeployments, row.deploymentId = deployment.id)
    (distinct : (deployment.serviceDeployments.map (·.id)).Nodup) :
    after.rowsOf deployment.id = deployment.serviceDeployments := by
  unfold saveDeployment at saved
  split_ifs at saved
  cases saved
  have others : ∀ row ∈ db.serviceDeployments.filter (·.deploymentId ≠ deployment.id),
      row.deploymentId ≠ deployment.id := by
    intro row stored
    simpa using (List.mem_filter.mp stored).2
  rw [rowsOf, rows_fold_append _ _ owned distinct _
    fun row stored same => absurd same (others row stored), List.filter_append]
  have none_ : (db.serviceDeployments.filter (·.deploymentId ≠ deployment.id)).filter
      (·.deploymentId = deployment.id) = [] := by
    rw [List.filter_eq_nil_iff]
    intro row stored
    simpa using others row stored
  rw [none_, List.nil_append, List.filter_eq_self]
  intro row member
  simpa using owned row member

variable {row : ServiceDeployment}

/-- The service deployments of a saved record are those it was saved with. -/
theorem save_deployment_row_mem (saved : db.saveDeployment deployment = some after)
    (stored : row ∈ after.rowsOf deployment.id) :
    ∃ source ∈ deployment.serviceDeployments, row = { source with deploymentId := deployment.id } := by
  unfold saveDeployment at saved
  split_ifs at saved
  cases saved
  obtain ⟨inTable, owned⟩ := List.mem_filter.mp stored
  have folded : row ∈ (deployment.serviceDeployments.map fun source =>
      { source with deploymentId := deployment.id }).foldl (fun rows row => upsert rowKey row rows)
        (db.serviceDeployments.filter (·.deploymentId ≠ deployment.id)) := by
    rw [List.foldl_map]
    exact inTable
  rcases mem_foldl_upsert rowKey _ _ folded with written | ⟨old, -⟩
  · obtain ⟨source, member, same⟩ := List.mem_map.mp written
    exact ⟨source, member, same.symm⟩
  · have other := (List.mem_filter.mp old).2
    rw [decide_eq_true_eq] at owned other
    exact absurd owned other

theorem save_service_deployment_shape (saved : db.saveServiceDeployment row = some after) :
    after = { db with serviceDeployments := upsert rowKey row db.serviceDeployments } := by
  unfold saveServiceDeployment at saved
  split_ifs at saved
  cases saved
  rfl

theorem save_service_deployment_rows_other (saved : db.saveServiceDeployment row = some after)
    (different : id ≠ row.deploymentId) : after.rowsOf id = db.rowsOf id := by
  rw [save_service_deployment_shape saved, rowsOf, rowsOf]
  apply filter_upsert_of_disjoint
  intro other sameKey
  have owned : other.deploymentId = row.deploymentId := congrArg Prod.snd sameKey
  simpa [owned] using different.symm

theorem append_deployment_log_shape {line : String}
    (saved : db.appendDeploymentLog id line = some after) :
    after = { db with deploymentLogs := db.deploymentLogs ++ [(id, line)] } := by
  unfold appendDeploymentLog at saved
  split_ifs at saved
  cases saved
  rfl

variable {app : App}

theorem save_app_apps (saved : db.saveApp app = some after) :
    after.apps = upsert (·.id) (db.storedApp app) db.apps := by
  unfold saveApp at saved
  dsimp only at saved
  split_ifs at saved
  cases saved
  rfl

theorem save_app_deployments (saved : db.saveApp app = some after) :
    after.deployments = db.deployments := by
  unfold saveApp at saved
  dsimp only at saved
  split_ifs at saved
  cases saved
  rfl

theorem services_fold_stored (services table : List ContainerService) :
    ∀ service ∈ services, ∃ row ∈ services.foldl (fun rows service => upsert (·.id) service rows)
      table, row.id = service.id ∧ row ∈ services := by
  induction services using List.reverseRecOn with
  | nil => simp
  | append_singleton services last ih =>
      intro service member
      rw [List.foldl_append, List.foldl_cons, List.foldl_nil]
      by_cases same : service.id = last.id
      · refine ⟨last, mem_upsert.mpr (Or.inl rfl), same.symm, ?_⟩
        exact List.mem_append_right _ (List.mem_singleton_self _)
      · have earlier : service ∈ services := by
          rcases List.mem_append.mp member with old | isLast
          · exact old
          · rw [List.mem_singleton.mp isLast] at same
            exact absurd rfl same
        obtain ⟨row, stored, sameId, inServices⟩ := ih service earlier
        refine ⟨row, mem_upsert.mpr (Or.inr ⟨stored, ?_⟩), sameId,
          List.mem_append_left _ inServices⟩
        rw [sameId]
        exact same

theorem save_app_services (saved : db.saveApp app = some after) :
    ∀ service ∈ app.services, ∃ row ∈ after.services, row.id = service.id ∧ row ∈ app.services := by
  unfold saveApp at saved
  dsimp only at saved
  split_ifs at saved
  cases saved
  intro service member
  obtain ⟨row, stored, sameId, inServices⟩ := services_fold_stored app.services db.services service
    member
  refine ⟨row, List.mem_filter.mpr ⟨stored, ?_⟩, sameId, inServices⟩
  have kept : row.id ∈ app.services.map (·.id) := List.mem_map_of_mem inServices
  simp only [List.mem_filter, decide_eq_true_eq, not_and, not_not]
  intro _
  simpa using kept

theorem save_app_service_ids (saved : db.saveApp app = some after)
    (unique : (db.services.map (·.id)).Nodup) : (after.services.map (·.id)).Nodup := by
  unfold saveApp at saved
  dsimp only at saved
  split_ifs at saved
  cases saved
  exact (foldl_upsert_nodup (·.id) app.services db.services unique).sublist
    (List.filter_sublist.map _)

/-- A service stored after the save was saved, or it is of another app and was stored. -/
theorem save_app_service (saved : db.saveApp app = some after) {row : ContainerService}
    (stored : row ∈ after.services) : row ∈ app.services ∨
      row ∈ db.services ∧ row.appId ≠ app.id ∧ row.id ∉ app.services.map (·.id) := by
  unfold saveApp at saved
  dsimp only at saved
  split_ifs at saved
  cases saved
  obtain ⟨inFold, kept⟩ := List.mem_filter.mp stored
  rcases mem_foldl_upsert (·.id) app.services db.services inFold with written | ⟨old, other⟩
  · exact Or.inl written
  · refine Or.inr ⟨old, fun sameApp => ?_, other⟩
    have gone : row.id ∈ (((app.services.foldl (fun rows service => upsert (·.id) service rows)
        db.services).filter (·.appId = app.id)).map (·.id)).filter
          (· ∉ app.services.map (·.id)) := by
      apply List.mem_filter.mpr
      refine ⟨List.mem_map.mpr ⟨row, List.mem_filter.mpr ⟨inFold, ?_⟩, rfl⟩, ?_⟩
      · simpa using sameApp
      · simpa using other
    have absent := of_decide_eq_true kept
    exact absent gone

/-- A save keeps the services of the other apps whose ids it does not write. -/
theorem save_app_service_other (saved : db.saveApp app = some after)
    (unique : (db.services.map (·.id)).Nodup) {row : ContainerService} (stored : row ∈ db.services)
    (otherApp : row.appId ≠ app.id) (otherId : row.id ∉ app.services.map (·.id)) :
    row ∈ after.services := by
  unfold saveApp at saved
  dsimp only at saved
  split_ifs at saved
  cases saved
  have inFold := mem_foldl_upsert_of_mem (·.id) app.services db.services stored otherId
  have uniqueFold := foldl_upsert_nodup (·.id) app.services db.services unique
  apply List.mem_filter.mpr
  refine ⟨inFold, ?_⟩
  apply decide_eq_true
  intro gone
  obtain ⟨inRows, -⟩ := List.mem_filter.mp gone
  obtain ⟨found, inFiltered, sameId⟩ := List.mem_map.mp inRows
  obtain ⟨foundInFold, ofApp⟩ := List.mem_filter.mp inFiltered
  have same := List.inj_on_of_nodup_map uniqueFold foundInFold inFold sameId
  rw [same] at ofApp
  exact otherApp (of_decide_eq_true ofApp)

theorem save_app_rows (saved : db.saveApp app = some after) (id : Uuid) :
    after.deploymentRow id = db.deploymentRow id := by
  rw [deploymentRow, save_app_deployments saved]
  rfl

/-- Deleting a deployment may clear references to it, never another status. -/
theorem delete_deployment_status_other (db : Database) {deleted : Uuid} (different : id ≠ deleted) :
    (db.deleteDeployment deleted).statusOf id = db.statusOf id := by
  unfold statusOf deploymentRow deleteDeployment lookup
  dsimp only
  induction db.deployments with
  | nil => rfl
  | cons row rows ih =>
      by_cases gone : row.id = deleted
      · have skipped : ¬row.id = id := fun same => different (same.symm.trans gone)
        simpa [gone, skipped, different.symm] using ih
      · by_cases found : row.id = id
        · by_cases referred : row.rollbackFromDeploymentId = some deleted
          · simp [found, different, referred]
          · simp [found, different, referred]
        · by_cases referred : row.rollbackFromDeploymentId = some deleted
          · simpa [gone, found, referred] using ih
          · simpa [gone, found, referred] using ih

end Database

end Containr
