import Containr.Api.Built
import Containr.Api.Queueing
import Containr.Api.Services

/-!
# The tasks that write an app

An app is written by the handlers of `Containr.Api.Services` and by the worker, which
restores the services of a deployment's snapshot. Whatever holds of every list of services
that is read or saved holds of every snapshot, and so of what a rollback restores.
-/

namespace Containr.Api.Services

open Containr.Effect Containr.Effect.Program Containr.Worker Containr.Api.Queueing

inductive Writer where
  | createRepository (userId : Uuid) (request : RepositoryRequest)
  | createStack (userId : Uuid) (request : StackRequest)
  | addServices (userId : Uuid) (groupId : String) (addition : ProjectAddition)
  | updateService (userId serviceId : Uuid) (request : UpdateServiceRequest)
  | deleteService (userId serviceId : Uuid)
  | updateProject (userId id : Uuid) (name : String)
  | serviceSettings (userId serviceId : Uuid)
  | deployWebhook (serviceId : Uuid) (token : String) (request : App → DeploymentRequest)
  | deploy (id : Uuid) (request : App → DeploymentRequest)
  | worker (runtime : Runtime) (patience fuel : Nat)

def task (server : Server) : Writer → Sys Unit
  | .createRepository userId request => ignore (createRepositoryService server userId request)
  | .createStack userId request => ignore (createStackService server userId request)
  | .addServices userId groupId addition =>
      ignore (addServicesToProject server userId groupId addition)
  | .updateService userId serviceId request => ignore (updateService server userId serviceId request)
  | .deleteService userId serviceId => ignore (deleteService server userId serviceId)
  | .updateProject userId id name => ignore (updateProject server userId id name)
  | .serviceSettings userId serviceId => ignore (getServiceSettings userId serviceId)
  | .deployWebhook serviceId token request => ignore (deployWebhook serviceId token request)
  | .deploy id request => ignore (deployStored id request)
  | .worker runtime patience fuel => Worker.run runtime patience fuel

section Reading

variable {allowed : Op → Prop} [Op.Allows allowed]

theorem with_services_reading (rows : List App) :
    (Store.withServices rows).run.Calls allowed := by
  induction rows with
  | nil => exact calls_run_pure _
  | cons row rows ih =>
      apply Calls.run_bind (op_calls (looks (by trivial)))
      intro services
      apply Calls.run_bind ih
      intro others
      exact calls_run_pure _

theorem list_apps_reading : Store.listApps.run.Calls allowed := by
  apply Calls.run_bind (op_calls (looks (by trivial)))
  intro rows
  exact with_services_reading rows

theorem user_is_admin_reading (userId : Uuid) : (userIsAdmin userId).run.Calls allowed :=
  or_internal_calls (op_calls (looks (by trivial)))

variable (server : Server) (app : App) (appId : Uuid)

theorem validate_port_mappings_reading : (validatePortMappings server app).run.Calls allowed := by
  apply Calls.run_bind (checked_calls _)
  intro seen
  split
  · exact calls_run_pure _
  · apply Calls.run_bind (or_internal_calls list_apps_reading)
    intro apps
    exact checked_calls _

theorem validate_target_reading (baseDomain domain : String) (addresses : List String) :
    (validateTarget baseDomain domain addresses).run.Calls allowed := by
  apply Calls.run_lift_bind (op_calls (looks (by trivial)))
  intro baseAddresses
  split
  · exact calls_run_pure _
  · apply Calls.run_lift_bind (op_calls (looks (by trivial)))
    intro answer
    split
    · exact calls_run_throw _
    · exact ensure_calls _ _

theorem validate_domain_reading (domain : String) :
    (validateDomain server domain).run.Calls allowed := by
  apply Calls.run_bind (ensure_calls _ _)
  intro _
  apply Calls.run_bind (ensure_calls _ _)
  intro _
  apply Calls.run_lift_bind (op_calls (looks (by trivial)))
  intro addresses
  apply Calls.run_bind (calls_pure _)
  intro served
  split
  · exact calls_run_pure _
  · exact validate_target_reading _ _ _

theorem validate_domains_reading (domains : List String) :
    (validateDomains server domains).run.Calls allowed := by
  apply calls_for_each
  intro domain _
  apply Calls.bind (validate_domain_reading server domain)
  intro result
  exact calls_pure _

theorem check_domain_unused_reading (domain : String) :
    (checkDomainUnused appId domain).run.Calls allowed := by
  apply Calls.run_bind
  · apply or_internal_calls
    apply Calls.run_bind list_apps_reading
    intro apps
    exact calls_run_pure _
  intro found
  split
  · exact ensure_calls _ _
  · exact calls_run_pure _

theorem validate_app_service_domains_reading :
    (validateAppServiceDomains server app).run.Calls allowed := by
  apply Calls.run_bind (checked_calls _)
  intro domains
  split
  · exact calls_run_pure _
  · apply Calls.run_bind (validate_domains_reading server domains)
    intro _
    apply Calls.run_bind
    · apply calls_for_each
      intro domain _
      exact check_domain_unused_reading app.id domain
    intro _
    exact calls_run_pure _

theorem validate_app_reading : (validateApp server app).run.Calls allowed := by
  apply Calls.run_bind (validate_port_mappings_reading server app)
  intro _
  exact Calls.run_return (validate_app_service_domains_reading server app)

theorem is_empty_dir_reading (path : String) : (isEmptyDir path).run.Calls allowed :=
  or_internal_calls (op_calls (looks (by trivial)))

theorem plan_mount_reading (crates : Crates) (isShared : Bool) (name ownPath sharedPath : String) :
    (planMount crates isShared name ownPath sharedPath).run.Calls allowed := by
  unfold planMount
  split
  · apply Calls.run_bind (is_empty_dir_reading _)
    intro ownEmpty
    split
    · exact calls_run_pure _
    · apply Calls.run_bind (is_empty_dir_reading _)
      intro sharedEmpty
      exact Calls.run_return (ensure_calls _ _)
  · apply Calls.run_bind (is_empty_dir_reading _)
    intro ownEmpty
    split
    · apply Calls.run_bind (is_empty_dir_reading _)
      intro sharedEmpty
      split
      · exact calls_run_pure _
      · exact calls_run_pure _
    · exact calls_run_pure _

theorem plan_mounts_reading (previous : ContainerService) (mounts : List ServiceMount) :
    (planMounts server appId previous mounts).run.Calls allowed := by
  induction mounts with
  | nil => exact calls_run_pure _
  | cons mount mounts ih =>
      apply Calls.run_bind
      · unfold planMountChange
        split
        · exact calls_run_pure _
        · split
          · exact plan_mount_reading _ _ _ _ _
          · exact calls_run_pure _
      intro migrations
      apply Calls.run_bind ih
      intro others
      exact calls_run_pure _

theorem undo_migrations_reading (moved : List MountMigration) :
    (undoMigrations moved).Calls allowed := by
  apply calls_for_all
  intro migration _
  split
  · exact Calls.bind (op_calls (looks (by trivial))) fun _ => calls_pure _
  · exact calls_pure _

theorem apply_migrations_reading (moved migrations : List MountMigration) :
    (applyMigrations moved migrations).run.Calls allowed := by
  induction migrations generalizing moved with
  | nil => exact calls_run_pure _
  | cons migration migrations ih =>
      apply Calls.run_lift_bind
      · cases migration with
        | moveToShared source target => exact op_calls (looks (by trivial))
        | copyFromShared source target => exact op_calls (looks (by trivial))
      intro result
      split
      · apply Calls.run_lift_bind (undo_migrations_reading moved)
        intro _
        exact calls_run_throw _
      · exact ih _
      · exact ih _

theorem request_certificates_reading : (requestCertificates server app).Calls allowed := by
  unfold requestCertificates
  split
  · apply calls_for_all
    intro domain _
    exact op_calls (looks (by trivial))
  · exact calls_pure _

theorem refresh_proxy_routes_reading : (refreshProxyRoutes server appId).Calls allowed := by
  unfold refreshProxyRoutes
  have sends : (external (.sendProxyRefresh appId)).Calls allowed := op_calls (looks (by trivial))
  exact calls_ite sends (calls_pure _)

theorem resolve_managed_record_reading (userId serviceId : Uuid) :
    (resolveManagedRecord userId serviceId).run.Calls allowed := by
  apply Calls.run_bind (or_internal_calls (op_calls (looks (by trivial))))
  intro database
  split
  · exact ensure_calls _ _
  · apply Calls.run_bind (or_internal_calls (op_calls (looks (by trivial))))
    intro queue
    split
    · exact ensure_calls _ _
    · exact calls_run_throw _

theorem get_app_reading (id : Uuid) : (Store.getApp id).run.Calls Op.Reading := by
  apply Calls.run_bind (op_calls trivial)
  intro row
  split
  · exact calls_run_pure _
  · exact Calls.run_return (op_calls trivial)

theorem resolve_group_id_reading (userId : Uuid) (groupId : String) :
    (resolveGroupId server userId groupId).run.Calls Op.Reading := by
  apply Calls.run_bind (ensure_calls _ _)
  intro _
  split
  · apply Calls.run_bind (or_internal_calls (get_app_reading _))
    intro found
    split
    · exact Calls.run_return (ensure_calls _ _)
    · exact calls_run_throw _
  · exact calls_run_throw _

theorem new_app_reading (name githubUrl : String) (ownerId : Uuid) :
    (newApp name githubUrl ownerId).Calls allowed := by
  apply Calls.bind (op_calls (looks (by trivial)))
  intro now
  apply Calls.bind (op_calls (looks (by trivial)))
  intro id
  apply Calls.bind (op_calls (looks (by trivial)))
  intro token
  exact calls_pure _

end Reading

def GoodSnapshot (good : Uuid → List ContainerService → Prop) (deployment : Deployment) : Prop :=
  ∀ app, deployment.appSnapshot = some app → good app.id app.services

def GoodSnapshots (good : Uuid → List ContainerService → Prop) (deployments : List Deployment) :
    Prop := ∀ deployment ∈ deployments, GoodSnapshot good deployment

/-- The answers while every stored list is good; a successful save is of a good list. -/
def Expected (good : Uuid → List ContainerService → Prop) : (op : Op) → op.Answer → Prop
  | .query (.app id), .ok found => ∀ row, found = some row → App.id row = id
  | .query (.servicesByApp appId), .ok services => good appId services
  | .query (.deployment _), .ok found => ∀ row, found = some row → GoodSnapshot good row
  | .query (.deploymentsByApp _), .ok rows => GoodSnapshots good rows
  | .write (.saveApp app), .ok _ => good app.id app.services
  | _, _ => True

/-- Only good snapshots are saved, and only apps with services as `saved` says. -/
def Permitted (good saved : Uuid → List ContainerService → Prop) : Op → Prop
  | .write (.saveApp app) => saved app.id app.services
  | .write (.saveDeployment deployment) => GoodSnapshot good deployment
  | _ => True

def Op.Plain : Op → Prop
  | .write (.saveApp _) | .write (.saveDeployment _) => False
  | _ => True

theorem plain_of_within {names : String → Prop} {rows : ServiceDeployment → Prop} (op : Op)
    (within : op.Within names rows) : Op.Plain op := by
  cases op with
  | write change =>
      cases change with
      | saveApp app => exact within
      | saveDeployment deployment => exact within
      | _ => trivial
  | _ => trivial

section Tasks

variable {good saved : Uuid → List ContainerService → Prop}

theorem plain_of_reading (op : Op) (reading : Op.Reading op) : Op.Plain op := by
  cases op with
  | write change => exact reading.elim
  | _ => trivial

theorem plain_permitted (op : Op) (plain : Op.Plain op) : Permitted good saved op := by
  cases op with
  | write change =>
      cases change with
      | saveApp app => exact plain.elim
      | saveDeployment deployment => exact plain.elim
      | _ => trivial
  | _ => trivial

/-- While every stored list is good, the handler makes permitted calls and returns what `post`
says. -/
abbrev Abides {Error Value : Type} (good saved : Uuid → List ContainerService → Prop)
    (handler : ExceptT Error (Program Effects) Value) (post : Value → Prop) : Prop :=
  handler.run.Under (Expected good) (Permitted good saved) (OnOk post)

variable {Value : Type}

theorem plain_under {program : Sys Value} (calls : program.Calls Op.Plain) :
    program.Under (Expected good) (Permitted good saved) fun _ => True :=
  (calls.mono plain_permitted).under

variable {Error : Type} {program : Sys (Except Error Value)}

theorem plain_under_ok (calls : program.Calls Op.Plain) :
    program.Under (Expected good) (Permitted good saved) (OnOk fun _ => True) :=
  (calls.mono plain_permitted).under_ok

theorem reading_permitted {program : Sys Value} (calls : program.Calls Op.Reading) :
    program.Under (Expected good) (Permitted good saved) fun _ => True :=
  plain_under (calls.mono plain_of_reading)

theorem reading_permitted_ok (calls : program.Calls Op.Reading) :
    program.Under (Expected good) (Permitted good saved) (OnOk fun _ => True) :=
  plain_under_ok (calls.mono plain_of_reading)

theorem ignore_under {program : ExceptT Error (Program Effects) Value}
    {expects : (op : Op) → op.Answer → Prop} {allowed : Op → Prop} {post : Value → Prop}
    (under : program.run.Under expects allowed (OnOk post)) :
    (ignore program).Under expects allowed fun _ => True := by
  unfold ignore
  apply under.bind
  intro result _
  exact under_pure.mpr trivial

theorem get_app_under (id : Uuid) :
    Abides good saved (Store.getApp id)
      fun found => ∀ app, found = some app → app.id = id ∧ good app.id app.services := by
  unfold Store.getApp
  apply under_run_bind.mpr
  apply under_op trivial
  intro answer expected
  rcases answer with message | (_ | row)
  · trivial
  · apply under_return
    intro app absurd
    cases absurd
  · have sameId : row.id = id := expected row rfl
    have read : Abides good saved (Store.listServicesByApp row.id) (good row.id) := by
      apply under_op trivial
      intro answer expected
      cases answer with
      | error message => trivial
      | ok services => exact expected
    apply under_chain read
    intro services held
    apply under_return
    intro app same
    cases same
    exact ⟨sameId, held⟩

theorem get_deployment_under (id : Uuid) :
    Abides good saved (Store.getDeployment id)
      fun found => ∀ deployment, found = some deployment → GoodSnapshot good deployment := by
  unfold Store.getDeployment
  apply under_run_bind.mpr
  apply under_op trivial
  intro answer expected
  rcases answer with message | (_ | row)
  · trivial
  · apply under_return
    intro deployment absurd
    cases absurd
  · apply under_chain (plain_under_ok (op_calls trivial))
    intro rows _
    apply under_return
    intro deployment same
    cases same
    exact expected row rfl

theorem snapshots_marking (appId : Uuid) :
    Marking (Expected good) (Permitted good saved) (GoodSnapshot good) appId where
  lists _ expected := expected
  list := trivial
  saves _ held := held
  others op marks := by
    cases op with
    | write change => cases change <;> trivial
    | _ => trivial
  joined _ _ held := held
  stopped _ _ _ held := held

theorem list_deployments_under (appId : Uuid) :
    Abides good saved (Store.listDeploymentsByApp appId) (GoodSnapshots good) :=
  list_deployments_keep (snapshots_marking appId)

variable {deployment : Deployment}

theorem save_deployment_under (held : GoodSnapshot good deployment) :
    Abides good saved (Store.saveDeployment deployment) fun _ => True := by
  have calls : (Store.saveDeployment deployment).run.Calls (Permitted good saved) := op_calls held
  exact calls.under_ok

theorem persist_deployment_under (held : GoodSnapshot good deployment) :
    Abides good saved (persistDeployment deployment) fun _ => True := by
  apply under_chain (internal_under (save_deployment_under held))
  intro _ _
  apply plain_under_ok
  apply calls_for_each
  intro row _
  exact or_internal_calls (op_calls trivial)

theorem for_each_under {Item : Type} {body : Item → Sys (Except Error Unit)} (items : List Item)
    (step : ∀ item ∈ items, (body item).Under (Expected good) (Permitted good saved)
      (OnOk fun _ => True)) :
    (forEach body items).Under (Expected good) (Permitted good saved) (OnOk fun _ => True) := by
  have looped : (forEach body items).Under (Expected good) (Permitted good saved) fun _ => True :=
    under_for_each items fun item member => (step item member).mono fun _ _ => trivial
  apply looped.mono
  intro result _
  cases result with
  | ok value => trivial
  | error error => trivial

theorem queue_deployment_under {request : DeploymentRequest}
    (held : good request.app.id request.app.services) :
    Abides good saved (queueDeployment request) fun _ => True := by
  apply queue_deployment_keeps (snapshots_marking _)
  · intro op queues
    cases op with
    | write change => cases change <;> trivial
    | _ => trivial
  · intro id now source app same
    cases same
    exact held

theorem save_app_under {app : App} (held : saved app.id app.services) :
    Abides good saved (Store.saveApp app) fun _ => good app.id app.services := by
  apply under_op held
  intro answer expected
  cases answer with
  | error message => trivial
  | ok _ => exact expected

theorem delete_app_plain (id : Uuid) : (deleteApp id).run.Calls Op.Plain := by
  apply Calls.run_bind ((get_app_quiet id).mono plain_of_within)
  intro found
  split
  · apply Calls.run_bind ((list_deployments_quiet _).mono plain_of_within)
    intro deployments
    apply Calls.run_lift_bind
    · apply calls_for_all
      intro deployment _
      exact ignore_calls (op_calls trivial)
    intro _
    exact Calls.run_return (op_calls trivial)
  · exact calls_run_pure _

variable {app : App} {userId : Uuid} {server : Server}

theorem finish_creation_under {deploy : Bool} (held : good app.id app.services) :
    Abides good saved (finishCreation server userId deploy app) fun _ => True := by
  have rest : ∀ _ : Unit, Abides good saved (do requestCertificates server app; firstServiceId app :
      Handler Uuid) fun _ => True := by
    intro _
    apply under_lift_chain (reading_permitted (request_certificates_reading server app))
    intro _ _
    apply plain_under_ok
    unfold firstServiceId
    split
    · exact calls_run_pure _
    · exact calls_run_throw _
  have deploys : Abides good saved (deployNew userId app) fun _ => True := by
    have queued : Abides good saved (firstDeployment userId app "initial" "initial deployment")
      fun _ => True := queue_deployment_under held
    apply under_lift_chain queued
    intro result _
    split
    · exact under_return trivial
    · apply under_lift_chain (plain_under (ignore_calls (delete_app_plain app.id)))
      intro _ _
      exact under_throw _ _
  unfold finishCreation
  split
  · exact under_chain deploys fun _ _ => rest ()
  · exact rest ()

abbrev Prepares {Result : Type} (good saved : Uuid → List ContainerService → Prop)
    (target : Result → App) (program : Handler Result) : Prop :=
  Abides good saved program (fun result => saved (target result).id (target result).services)

theorem create_repository_under {request : RepositoryRequest}
    (prepared : Prepares good saved id (prepareRepositoryApp server userId request)) :
    Abides good saved (createRepositoryService server userId request) fun _ => True := by
  apply under_chain prepared
  intro app permitted
  apply under_chain (internal_under (save_app_under permitted))
  intro _ held
  exact finish_creation_under held

theorem create_stack_under {request : StackRequest}
    (prepared : Prepares good saved id (prepareStackApp server userId request)) :
    Abides good saved (createStackService server userId request) fun _ => True := by
  apply under_chain prepared
  intro app permitted
  apply under_chain (internal_under (save_app_under permitted))
  intro _ held
  exact finish_creation_under held

theorem finish_addition_under {deploy : Bool} {enlarged : Enlarged}
    (held : good enlarged.app.id enlarged.app.services)
    (again : saved enlarged.previous.id enlarged.previous.services) :
    Abides good saved (finishAddition server userId deploy enlarged) fun _ => True := by
  have rest : ∀ _ : Unit, Abides good saved (do
      requestCertificates server enlarged.app
      refreshProxyRoutes server enlarged.app.id
      return enlarged.firstId : Handler Uuid) fun _ => True := by
    intro _
    apply under_lift_chain (reading_permitted (request_certificates_reading server _))
    intro _ _
    apply under_lift_chain (reading_permitted (refresh_proxy_routes_reading server _))
    intro _ _
    exact under_return trivial
  have deploys : Abides good saved (deployEnlarged userId enlarged.previous enlarged.app)
    fun _ => True := by
    have queued : Abides good saved (firstDeployment userId enlarged.app "manual"
        "deployment after adding services") fun _ => True := queue_deployment_under held
    apply under_lift_chain queued
    intro result _
    split
    · exact under_return trivial
    · apply under_lift_chain (ignore_under (save_app_under again))
      intro _ _
      exact under_throw _ _
  unfold finishAddition
  split
  · exact under_chain deploys fun _ _ => rest ()
  · exact rest ()

theorem add_services_under {groupId : String} {addition : ProjectAddition}
    (prepared : Abides good saved (prepareAddition server userId groupId addition) (fun enlarged =>
        saved enlarged.app.id enlarged.app.services ∧
          saved enlarged.previous.id enlarged.previous.services)) :
    Abides good saved (addServicesToProject server userId groupId addition) fun _ => True := by
  apply under_chain prepared
  intro enlarged permitted
  apply under_chain (internal_under (save_app_under permitted.1))
  intro _ held
  exact finish_addition_under held permitted.2

theorem update_service_under {serviceId : Uuid} {request : UpdateServiceRequest}
    (prepared : Prepares good saved Updated.app (prepareUpdate server userId serviceId request)) :
    Abides good saved (updateService server userId serviceId request) fun _ => True := by
  apply under_chain prepared
  intro updated permitted
  have saves : Abides good saved (saveUpdated updated.app updated.moved) fun _ => True := by
    apply under_lift_chain (save_app_under permitted)
    intro result _
    split
    · exact under_return trivial
    · apply under_lift_chain (reading_permitted (undo_migrations_reading _))
      intro _ _
      exact under_throw _ _
  apply under_chain saves
  intro _ _
  exact under_return trivial

theorem resolve_owned_service_under (userId serviceId : Uuid) :
    Abides good saved (resolveOwnedServiceRecord userId serviceId)
      (fun found => ∀ app service, found = some (app, service) →
        good app.id app.services) := by
  apply under_chain (plain_under_ok (or_internal_calls (op_calls trivial)))
  intro row _
  split
  · apply under_chain (internal_under (get_app_under _))
    intro found held
    split
    · rename_i app
      apply under_chain ensure_under
      intro _ _
      apply under_return
      intro other service same
      cases same
      exact (held app rfl).2
    · exact under_throw _ _
  · apply under_chain (reading_permitted_ok (resolve_managed_record_reading userId serviceId))
    intro _ _
    apply under_return
    intro app service absurd
    cases absurd

theorem resolve_owned_app_service_under (userId serviceId : Uuid) :
    Abides good saved (resolveOwnedAppServiceRecord userId serviceId)
      fun found => good found.1.id found.1.services := by
  apply under_chain (resolve_owned_service_under userId serviceId)
  intro found held
  split
  · rename_i pair
    apply under_return
    exact held pair.1 pair.2 rfl
  · exact under_throw _ _

theorem newest_found_mem {deployments : List Deployment} {first second : Deployment → Bool}
    {picked : Deployment}
    (found : ((deployments.insertionSort fun left right =>
        right.createdAt ≤ left.createdAt).find? first).orElse (fun _ =>
      (deployments.insertionSort fun left right => right.createdAt ≤ left.createdAt).find? second) =
        some picked) : picked ∈ deployments := by
  rw [← List.mem_insertionSort fun left right : Deployment => right.createdAt ≤ left.createdAt]
  generalize deployments.insertionSort (fun left right => right.createdAt ≤ left.createdAt) = sorted
    at found ⊢
  cases early : sorted.find? first with
  | some deployment =>
      rw [early] at found
      cases found
      exact List.mem_of_find?_eq_some early
  | none =>
      rw [early] at found
      exact List.mem_of_find?_eq_some found

theorem resolve_app_service_deployment_under (app : App) (service : ContainerService) :
    Abides good saved (resolveAppServiceDeployment app service)
      fun found => ∀ deployment, found = some deployment → GoodSnapshot good deployment := by
  apply under_chain (internal_under (list_deployments_under app.id))
  intro deployments held
  apply under_return
  intro deployment found
  exact held deployment (newest_found_mem found)

/-- What stopping a service's containers calls. -/
def Op.Stops : Op → Prop
  | .utcNow | .docker (.stopContainer _) | .docker (.removeContainer _) | .docker .listContainers =>
      True
  | _ => False

theorem plain_of_stops (op : Op) (stops : Op.Stops op) : Op.Plain op := by
  cases op with
  | write change => exact stops.elim
  | _ => trivial

theorem stop_container_stops (container : String) : (stopContainer container).Calls Op.Stops :=
  ignore_calls (op_calls trivial)

theorem stop_service_replica_stops (container : String) :
    (stopServiceReplica container).Calls Op.Stops := by
  apply (stop_container_stops container).bind
  intro _
  apply (stop_container_stops container).bind
  intro _
  exact ignore_calls (op_calls trivial)

theorem stop_service_rows_stops (serviceId : Uuid) (stopping : Bool)
    (rows : List ServiceDeployment) : (stopServiceRows serviceId stopping rows).Calls Op.Stops := by
  induction rows with
  | nil => exact calls_pure _
  | cons row rows ih =>
      have one : (stopServiceRow serviceId stopping row).Calls Op.Stops := by
        unfold stopServiceRow
        split_ifs
        · apply Calls.bind
          · apply calls_for_all
            intro container _
            exact stop_service_replica_stops container
          · intro _
            exact Calls.bind (op_calls trivial) fun _ => calls_pure _
        · exact Calls.bind (op_calls trivial) fun _ => calls_pure _
        · exact calls_pure _
      apply one.bind
      intro stopped
      exact ih.bind fun _ => calls_pure _

theorem stop_cron_containers_stops (app : App) (service : ContainerService) :
    (stopCronContainers app service).run.Calls Op.Stops := by
  unfold stopCronContainers
  split
  · exact calls_run_pure _
  · apply Calls.run_lift_bind (op_calls trivial)
    intro listed
    split
    · exact calls_run_throw _
    · apply Calls.run_lift_bind
      · apply calls_for_all
        intro name _
        exact stop_service_replica_stops name
      intro _
      exact calls_run_pure _

theorem stop_app_service_under (server : Server) (app : App) (service : ContainerService) :
    Abides good saved (stopAppService server app service) fun _ => True := by
  apply under_chain (resolve_app_service_deployment_under app service)
  intro found held
  split
  · rename_i deployment
    apply under_chain (plain_under_ok (or_internal_calls (op_calls trivial)))
    intro _ _
    apply under_chain (plain_under_ok ((stop_cron_containers_stops app service).mono plain_of_stops))
    intro cronStopped _
    apply under_lift_chain (plain_under ((stop_service_rows_stops _ _ _).mono plain_of_stops))
    intro rows _
    split
    · have kept : GoodSnapshot good { deployment with serviceDeployments := rows } :=
        held deployment rfl
      apply under_chain (persist_deployment_under kept)
      intro _ _
      split
      · exact plain_under_ok (Calls.run_lift
          ((refresh_proxy_routes_reading server app.id).mono plain_of_reading))
      · exact under_return trivial
    · exact under_return trivial
  · exact under_throw _ _

theorem delete_app_runtime_plain (server : Server) (app : App) :
    (deleteAppRuntime server app).run.Calls Op.Plain := by
  apply Calls.run_bind (or_internal_calls (op_calls trivial))
  intro containers
  apply Calls.run_lift_bind
  · apply calls_for_all
    intro name _
    exact (stop_service_replica_stops name).mono plain_of_stops
  intro _
  apply Calls.run_bind (or_internal_calls (op_calls trivial))
  intro _
  apply calls_for_each
  intro root _
  exact Calls.bind (op_calls trivial) fun _ => calls_pure _

theorem close_deployment_under {serviceId : Uuid} (held : GoodSnapshot good deployment) :
    Abides good saved (closeDeployment serviceId deployment) fun _ => True := by
  unfold closeDeployment
  split
  · apply under_lift_chain (plain_under ((stop_service_rows_stops _ _ _).mono plain_of_stops))
    intro rows _
    have kept : GoodSnapshot good { deployment with serviceDeployments := rows } := held
    exact persist_deployment_under kept
  · exact under_return trivial

theorem finish_deletion_under (server : Server) (app : App) (service : ContainerService) :
    Abides good saved (finishDeletion server app service) fun _ => True := by
  apply under_chain (internal_under (list_deployments_under app.id))
  intro deployments held
  have closes : Abides good saved (ExceptT.mk (forEach (fun deployment =>
      (closeDeployment service.id deployment).run) deployments) : Handler Unit) fun _ => True :=
    for_each_under deployments fun deployment member =>
      close_deployment_under (held deployment member)
  apply under_chain closes
  intro _ _
  apply plain_under_ok
  apply Calls.run_lift_bind (op_calls trivial)
  intro removed
  have refreshes := (refresh_proxy_routes_reading server app.id).mono plain_of_reading
  have certifies := (request_certificates_reading server app).mono plain_of_reading
  have rest : ∀ _ : Unit, (do
      if service.isPublicHttp then
        refreshProxyRoutes server app.id
      requestCertificates server app : Handler Unit).run.Calls Op.Plain := by
    intro _
    split
    · exact Calls.run_lift_bind refreshes fun _ => Calls.run_lift certifies
    · exact Calls.run_lift certifies
  rcases removed with (_ | message) | _
  · exact rest ()
  · exact Calls.run_bind (calls_run_throw _) rest
  · exact rest ()

structure Resaves (good saved : Uuid → List ContainerService → Prop) : Prop where
  same : ∀ id services, good id services → saved id services
  fewer : ∀ id services (keep : ContainerService → Bool), good id services →
    saved id (services.filter keep)

theorem delete_service_under (resaves : Resaves good saved) (server : Server)
    (userId serviceId : Uuid) :
    Abides good saved (deleteService server userId serviceId) fun _ => True := by
  apply under_chain (resolve_owned_service_under userId serviceId)
  intro found held
  split
  · rename_i app service
    have stops := ignore_under (@stop_app_service_under good saved server app service)
    unfold deleteAppService
    split
    · apply under_lift_chain stops
      intro _ _
      apply under_chain (plain_under_ok (delete_app_runtime_plain server app))
      intro _ _
      apply under_chain (plain_under_ok (or_internal_calls (delete_app_plain app.id)))
      intro _ _
      exact plain_under_ok (Calls.run_lift
        ((refresh_proxy_routes_reading server app.id).mono plain_of_reading))
    · apply under_lift_chain stops
      intro _ _
      apply under_lift_chain (reading_permitted utc_now_reading)
      intro now _
      have permitted : saved (withoutService app service.id now).id
          (withoutService app service.id now).services :=
        resaves.fewer app.id app.services _ (held app service rfl)
      apply under_chain (internal_under (save_app_under permitted))
      intro _ _
      exact finish_deletion_under server _ service
  · exact under_return trivial

theorem update_project_under (resaves : Resaves good saved) (server : Server)
    (userId id : Uuid) (name : String) :
    Abides good saved (updateProject server userId id name) fun _ => True := by
  apply under_chain ensure_under
  intro _ _
  apply under_chain (internal_under (get_app_under id))
  intro found held
  split
  · rename_i app owned
    have read : found = some app := (Option.filter_eq_some_iff.mp owned).1
    apply under_lift_chain (reading_permitted utc_now_reading)
    intro now _
    have permitted : saved app.id app.services :=
      resaves.same app.id app.services (held app read).2
    have saves := @save_app_under good saved
      { app with name := Text.trim name, updatedAt := now } permitted
    apply under_chain (internal_under saves)
    intro _ _
    apply under_lift_chain (reading_permitted (refresh_proxy_routes_reading server app.id))
    intro _ _
    exact under_return trivial
  · exact under_throw _ _

theorem with_webhook_token_under (resaves : Resaves good saved) (held : good app.id app.services) :
    Abides good saved (withWebhookToken app) fun tokened => good tokened.id tokened.services := by
  have tokens : (ensureDeployWebhookToken app).Under (Expected good) (Permitted good saved)
      fun tokened => tokened.id = app.id ∧ tokened.services = app.services := by
    unfold ensureDeployWebhookToken
    split
    · apply under_bind.mpr
      apply under_op trivial
      intro token _
      exact under_pure.mpr ⟨rfl, rfl⟩
    · exact under_pure.mpr ⟨rfl, rfl⟩
  apply under_lift_chain tokens
  intro tokened kept
  have good' : good tokened.id tokened.services := by
    rw [kept.1, kept.2]
    exact held
  split
  · apply under_chain (internal_under (save_app_under (resaves.same _ _ good')))
    intro _ _
    exact under_return good'
  · exact under_return good'

theorem get_service_settings_under (resaves : Resaves good saved) (userId serviceId : Uuid) :
    Abides good saved (getServiceSettings userId serviceId) fun _ => True := by
  apply under_chain (resolve_owned_app_service_under userId serviceId)
  intro found held
  apply under_chain (with_webhook_token_under resaves held)
  intro _ _
  exact under_return trivial

theorem deploy_stored_under (id : Uuid) (request : App → DeploymentRequest) :
    Abides good saved (deployStored id request) fun _ => True := by
  apply under_chain (internal_under (get_app_under id))
  intro found held
  split
  · rename_i app
    exact queue_deployment_under (held app rfl).2
  · exact under_throw _ _

theorem deploy_webhook_under (resaves : Resaves good saved) (serviceId : Uuid) (token : String)
    (request : App → DeploymentRequest) :
    Abides good saved (deployWebhook serviceId token request) fun _ => True := by
  apply under_chain (plain_under_ok (or_internal_calls (op_calls trivial)))
  intro row _
  split
  · apply under_chain (internal_under (get_app_under _))
    intro found held
    split
    · rename_i app
      apply under_chain (with_webhook_token_under resaves (held app rfl).2)
      intro tokened kept
      apply under_chain ensure_under
      intro _ _
      exact queue_deployment_under kept
    · exact under_throw _ _
  · exact under_throw _ _

theorem update_status_under {status : DeploymentStatus} (held : GoodSnapshot good deployment) :
    Abides good saved (updateStatus deployment status) fun _ => True := by
  unfold updateStatus
  apply under_lift_chain (reading_permitted utc_now_reading)
  intro now _
  apply under_lift_chain (plain_under (ignore_calls (op_calls trivial)))
  intro _ _
  exact save_deployment_under held

theorem should_continue_plain (id : Uuid) (message : String) :
    (shouldContinueDeployment id message).run.Calls Op.Plain := by
  unfold shouldContinueDeployment Store.getDeployment
  apply Calls.run_bind
  · apply Calls.run_bind (op_calls trivial)
    intro row
    split
    · exact calls_run_pure _
    · exact Calls.run_return (op_calls trivial)
  intro found
  split
  · exact calls_run_pure _
  · split
    · exact Calls.run_lift_return (ignore_calls (op_calls trivial))
    · exact calls_run_pure _

variable {rows : ServiceDeployment → Prop} {names : String → Prop}

theorem quiet_under {program : Sys Value} (quiet : program.Calls (Op.Within names rows)) :
    program.Under (Expected good) (Permitted good saved) fun _ => True :=
  plain_under (quiet.mono plain_of_within)

theorem quiet_under_ok (quiet : program.Calls (Op.Within names rows)) :
    program.Under (Expected good) (Permitted good saved) (OnOk fun _ => True) :=
  plain_under_ok (quiet.mono plain_of_within)

theorem source_images_under (runtime : Runtime) (job : DeploymentJob) (app : App)
    (held : GoodSnapshot good deployment) :
    Abides good saved (sourceImages runtime job deployment app) fun _ => True := by
  have checksOut : Abides good saved (checkoutSource runtime job deployment) fun _ => True := by
    unfold checkoutSource
    split
    · exact under_return trivial
    · apply under_chain (update_status_under held)
      intro _ _
      apply under_chain (quiet_under_ok (clone_repo_quiet runtime job))
      intro path _
      exact under_return trivial
  unfold sourceImages
  apply under_chain checksOut
  intro repoPath _
  apply under_chain (plain_under_ok (should_continue_plain _ _))
  intro continues _
  split
  · apply under_lift_chain (quiet_under (remove_checkout_quiet repoPath))
    intro _ _
    exact under_return trivial
  · apply under_chain (update_status_under held)
    intro _ _
    apply under_chain (quiet_under_ok (build_service_images_quiet _ _ _ _ _))
    intro images _
    apply under_lift_chain (quiet_under (remove_checkout_quiet repoPath))
    intro _ _
    apply under_chain (plain_under_ok (should_continue_plain _ _))
    intro continues _
    split
    · exact under_return trivial
    · exact under_return trivial

theorem restore_under (resaves : Resaves good saved) (isRollback : Bool) {snapshot : App}
    (held : good snapshot.id snapshot.services) :
    Abides good saved (restoreIfRollback snapshot isRollback) fun _ => True := by
  unfold restoreIfRollback
  split
  · apply under_chain (get_app_under snapshot.id)
    intro found read
    split
    · rename_i current
      apply under_lift_chain (reading_permitted utc_now_reading)
      intro now _
      have sameId : current.id = snapshot.id := (read current rfl).1
      have permitted : saved current.id snapshot.services := by
        rw [sameId]
        exact resaves.same _ _ held
      have saves := @save_app_under good saved { current with
        services := snapshot.services
        envVars := snapshot.envVars
        updatedAt := now } permitted
      exact saves.ok_mono fun _ _ => trivial
    · exact under_throw _ _
  · exact under_return trivial

theorem mark_deployment_stopped_under {previous : Deployment}
    (held : GoodSnapshot good previous) :
    Abides good saved (markDeploymentStopped previous) fun _ => True := by
  unfold markDeploymentStopped
  apply under_lift_chain (reading_permitted utc_now_reading)
  intro finishedAt _
  apply under_chain (get_deployment_under previous.id)
  intro loaded read
  have kept : GoodSnapshot good (loaded.getD previous) := by
    cases loaded with
    | none => exact held
    | some deployment => exact read deployment rfl
  have stopped : GoodSnapshot good { loaded.getD previous with
      status := .stopped
      finishedAt := some finishedAt
      serviceDeployments := (loaded.getD previous).serviceDeployments.map
        (stoppedRow finishedAt) } := kept
  exact save_deployment_under stopped

theorem finish_rollout_under (resaves : Resaves good saved) {plan : Plan} {rollout : Rollout}
    {isRollback : Bool} (app : good plan.app.id plan.app.services)
    (previous : GoodSnapshots good plan.previous) :
    Abides good saved (finishRollout plan rollout isRollback) fun _ => True := by
  unfold finishRollout
  apply under_chain (restore_under resaves isRollback app)
  intro _ _
  apply under_chain (plain_under_ok (op_calls trivial))
  intro existing _
  apply under_lift_chain (reading_permitted utc_now_reading)
  intro startedAt _
  apply under_lift_chain (reading_permitted utc_now_reading)
  intro finishedAt _
  have snapshot : GoodSnapshot good (finishedDeployment plan
      (rollout.serviceDeployments.filter fun row =>
        List.any existing fun service => service.id = row.serviceId) startedAt finishedAt) := by
    intro other same
    cases same
    exact app
  apply under_chain (save_deployment_under snapshot)
  intro _ _
  apply under_lift_chain (quiet_under (send_proxy_refresh_quiet _ _))
  intro _ _
  apply under_lift_chain (quiet_under (sweep_old_calls _ _))
  intro _ _
  apply for_each_under
  intro deployment member
  exact mark_deployment_stopped_under (previous deployment member)

theorem get_previous_running_under (appId current : Uuid) :
    Abides good saved (getPreviousRunningDeployments appId current) (GoodSnapshots good) := by
  unfold getPreviousRunningDeployments
  apply under_chain (list_deployments_under appId)
  intro deployments held
  apply under_return
  intro deployment member
  exact held deployment (List.mem_filter.mp member).1

theorem deploy_services_under (resaves : Resaves good saved) (runtime : Runtime)
    (deployment : Deployment) (networkName : String) (images : ServiceImages)
    (sharedEnv : List (String × String)) (strategy : RolloutStrategy) (isRollback : Bool)
    (held : good app.id app.services) :
    Abides good saved (deployServices runtime app deployment networkName images sharedEnv strategy
      isRollback) fun _ => True := by
  unfold deployServices
  apply under_chain (quiet_under_ok (sort_services_quiet _))
  intro sorted _
  apply under_chain (get_previous_running_under _ _)
  intro previous kept
  apply under_lift_chain (quiet_under (rollout_services_calls _ sorted))
  rintro ⟨outcome, rollout⟩ _
  dsimp only
  split
  · have undone := undo_tracked rollout
    apply under_lift_chain (quiet_under undone)
    intro _ _
    exact under_throw _ _
  · exact finish_rollout_under resaves held kept

theorem start_deployment_under (resaves : Resaves good saved) (runtime : Runtime)
    (job : DeploymentJob) (images : ServiceImages) (isRollback : Bool)
    (snapshot : GoodSnapshot good deployment) (held : good app.id app.services) :
    Abides good saved (startDeployment runtime job deployment app images isRollback)
      fun _ => True := by
  unfold startDeployment
  apply under_chain (update_status_under snapshot)
  intro _ _
  apply under_chain (plain_under_ok (should_continue_plain _ _))
  intro continues _
  split
  · exact under_return trivial
  · apply under_chain (plain_under_ok (op_calls trivial))
    intro _ _
    exact deploy_services_under resaves runtime deployment _ images _ _ isRollback held

theorem load_rollback_source_under (job : DeploymentJob) :
    Abides good saved (loadRollbackSource job)
      fun found => ∀ source, found = some source → GoodSnapshot good source := by
  unfold loadRollbackSource
  split
  · apply under_chain (get_deployment_under _)
    intro found held
    split
    · rename_i source
      apply under_chain ensure_under
      intro _ _
      apply under_return
      intro other same
      cases same
      exact held source rfl
    · exact under_throw _ _
  · apply under_return
    intro source absurd
    cases absurd

theorem job_images_under (runtime : Runtime) (job : DeploymentJob) (app : App)
    (held : GoodSnapshot good deployment) (source : Option Deployment) :
    Abides good saved (jobImages runtime job deployment app source) fun _ => True := by
  cases source with
  | none => exact source_images_under runtime job app held
  | some source =>
      unfold jobImages
      apply under_lift_chain (plain_under (ignore_calls (op_calls trivial)))
      intro _ _
      apply under_chain (plain_under_ok (calls_pure _))
      intro images _
      exact under_return trivial

theorem process_job_under (resaves : Resaves good saved) (runtime : Runtime)
    (job : DeploymentJob) :
    Abides good saved (processJob runtime job) fun _ => True := by
  unfold processJob
  apply under_chain (get_deployment_under _)
  intro found held
  split
  · rename_i deployment
    have snapshot := held deployment rfl
    apply under_chain ensure_under
    intro _ _
    apply under_chain (plain_under_ok (should_continue_plain _ _))
    intro continues _
    split
    · exact under_return trivial
    · apply under_chain (get_app_under _)
      intro app current
      split
      · rename_i currentApp
        apply under_chain (load_rollback_source_under job)
        intro source sourceHeld
        apply under_chain (job_images_under runtime job _ snapshot source)
        intro images _
        have effective : good (resolveDeploymentApp currentApp deployment source).id
            (resolveDeploymentApp currentApp deployment source).services := by
          have own := (current currentApp rfl).2
          unfold resolveDeploymentApp
          cases ofSource : source.bind (·.appSnapshot) with
          | some taken =>
              obtain ⟨deployed, isSource, snapshotOf⟩ := Option.bind_eq_some_iff.mp ofSource
              exact sourceHeld deployed isSource taken snapshotOf
          | none =>
              cases ofDeployment : deployment.appSnapshot with
              | some taken => exact snapshot taken ofDeployment
              | none => exact own
        split
        · exact start_deployment_under resaves runtime job _ _ snapshot effective
        · exact under_return trivial
      · exact under_throw _ _
  · exact under_throw _ _

theorem mark_failed_under (id : Uuid) (message : String) :
    (markFailed id message).Under (Expected good) (Permitted good saved) fun _ => True := by
  unfold markFailed
  apply (get_deployment_under id).bind
  intro result held
  rcases result with error | (_ | deployment)
  · exact under_pure.mpr trivial
  · exact under_pure.mpr trivial
  · dsimp only
    split
    · exact under_pure.mpr trivial
    · apply (reading_permitted utc_now_reading).bind
      intro now _
      apply (plain_under (ignore_calls (op_calls trivial))).bind
      intro _ _
      have kept : GoodSnapshot good { deployment with
          status := .failed
          finishedAt := some now } := held deployment rfl
      exact ignore_under (save_deployment_under kept)

theorem handle_job_under (resaves : Resaves good saved) (runtime : Runtime) (job : DeploymentJob) :
    (handleJob runtime job).Under (Expected good) (Permitted good saved) fun _ => True := by
  unfold handleJob
  apply (process_job_under resaves runtime job).bind
  intro result _
  apply (quiet_under (cleanup_quiet runtime job)).bind
  intro _ _
  have stores : (storeFlag .running false).Calls Op.Plain := op_calls trivial
  apply (plain_under stores).bind
  intro _ _
  split
  · exact under_pure.mpr trivial
  · exact mark_failed_under _ _

theorem begin_deployment_plain (patience : Nat) : (beginDeployment patience).Calls Op.Plain := by
  induction patience with
  | zero => exact calls_pure _
  | succ patience ih =>
      apply Calls.bind (op_calls trivial)
      intro _
      apply Calls.bind (op_calls trivial)
      intro paused
      split
      · exact calls_pure _
      · exact Calls.bind (op_calls trivial) fun _ => ih

theorem run_under (resaves : Resaves good saved) (runtime : Runtime) (patience fuel : Nat) :
    (Worker.run runtime patience fuel).Under (Expected good) (Permitted good saved)
      fun _ => True := by
  induction fuel with
  | zero => exact under_pure.mpr trivial
  | succ fuel ih =>
      have receives : receiveJob.Calls Op.Plain := op_calls trivial
      apply (plain_under receives).bind
      intro received _
      split
      · exact under_pure.mpr trivial
      · apply (plain_under (begin_deployment_plain patience)).bind
        intro begun _
        split
        · apply (handle_job_under resaves runtime _).bind
          intro _ _
          exact ih
        · exact under_pure.mpr trivial

structure Prepared (good saved : Uuid → List ContainerService → Prop) (server : Server) : Prop where
  repository : ∀ userId request, Prepares good saved id (prepareRepositoryApp server userId request)
  stack : ∀ userId request, Prepares good saved id (prepareStackApp server userId request)
  addition : ∀ userId groupId addition,
    Abides good saved (prepareAddition server userId groupId addition) (fun enlarged =>
        saved enlarged.app.id enlarged.app.services ∧
          saved enlarged.previous.id enlarged.previous.services)
  update : ∀ userId serviceId request,
    Prepares good saved Updated.app (prepareUpdate server userId serviceId request)

theorem task_permitted (prepared : Prepared good saved server) (resaves : Resaves good saved)
    (writer : Writer) :
    (task server writer).Under (Expected good) (Permitted good saved) fun _ => True := by
  cases writer with
  | createRepository userId request =>
      exact ignore_under (create_repository_under (prepared.repository userId request))
  | createStack userId request =>
      exact ignore_under (create_stack_under (prepared.stack userId request))
  | addServices userId groupId addition =>
      exact ignore_under (add_services_under (prepared.addition userId groupId addition))
  | updateService userId serviceId request =>
      exact ignore_under (update_service_under (prepared.update userId serviceId request))
  | deleteService userId serviceId =>
      exact ignore_under (delete_service_under resaves server userId serviceId)
  | updateProject userId id name =>
      exact ignore_under (update_project_under resaves server userId id name)
  | serviceSettings userId serviceId =>
      exact ignore_under (get_service_settings_under resaves userId serviceId)
  | deployWebhook serviceId token request =>
      exact ignore_under (deploy_webhook_under resaves serviceId token request)
  | deploy id request => exact ignore_under (deploy_stored_under id request)
  | worker runtime patience fuel => exact run_under resaves runtime patience fuel

end Tasks

end Containr.Api.Services
