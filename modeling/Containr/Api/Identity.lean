import Containr.Api.Writers

/-!
# Service identity

Every writer of an app saves a list it has checked as a whole: the names are trimmed and
distinct and every service carries the id of the app. No order of the writers' calls breaks
this, and an update matches every stored service with its own request, so that no id is
lost or drawn.
-/

namespace Containr.Api.Services

open Containr.Effect Containr.Effect.Program Containr.Worker

structure Sound (appId : Uuid) (services : List ContainerService) : Prop where
  names : (services.map (·.name)).Nodup
  trimmed : ∀ service ∈ services, Text.trim service.name = service.name
  owned : ∀ service ∈ services, service.appId = appId

variable {appId : Uuid}

theorem Sound.sublist {services fewer : List ContainerService} (sound : Sound appId services)
    (kept : fewer.Sublist services) : Sound appId fewer where
  names := sound.names.sublist (kept.map _)
  trimmed service member := sound.trimmed service (kept.subset member)
  owned service member := sound.owned service (kept.subset member)

theorem Sound.perm {services other : List ContainerService} (sound : Sound appId services)
    (same : other.Perm services) : Sound appId other where
  names := (same.map _).nodup_iff.mpr sound.names
  trimmed service member := sound.trimmed service (same.subset member)
  owned service member := sound.owned service (same.subset member)

theorem sound_resaves : Resaves Sound Sound where
  same _ _ sound := sound
  fewer _ _ _ sound := sound.sublist List.filter_sublist

section Prepared

variable {crates : Crates} {appId : Uuid} {existing : List ContainerService}
  {drawn : Uuid → Prop} {seen : List String} {requests : List ServiceRequest}
  {services : List ContainerService}

theorem built_sound (built : AllBuilt crates appId existing drawn seen requests services) :
    Sound appId services where
  names := built.distinct
  trimmed := by
    intro service member
    obtain ⟨request, -, origin, -, made⟩ := built.mem member
    rw [made.named, Text.trim_idem]
  owned := by
    intro service member
    obtain ⟨request, -, origin, -, made⟩ := built.mem member
    exact made.sameApp

theorem build_services_permitted (isAdmin : Bool) :
    (buildServices crates appId existing requests isAdmin).run.Under (Expected Sound)
      (Permitted Sound Sound) (OnOk (AllBuilt crates appId existing (fun _ => True) []
        requests)) := by
  have built := @build_services_under crates appId existing (fun _ => True) isAdmin Op.Reading _
    requests
  apply (built.weaken fun op reading => plain_permitted op (plain_of_reading op reading)).expecting
  intro op answer _
  cases op with
  | newUuid => trivial
  | _ => trivial

end Prepared

theorem checked_permitted {Value : Type} (result : Checked Value) :
    (checked result).run.Under (Expected Sound) (Permitted Sound Sound) (OnOk fun _ => True) :=
  checked_under fun _ _ => trivial

theorem new_app_permitted (name githubUrl : String) (ownerId : Uuid) :
    (newApp name githubUrl ownerId).Under (Expected Sound) (Permitted Sound Sound)
      fun _ => True := by
  exact reading_permitted (new_app_reading name githubUrl ownerId)

variable (server : Server) (userId : Uuid)

theorem prepare_repository_sound (request : RepositoryRequest) :
    Prepares Sound Sound id (prepareRepositoryApp server userId request) := by
  apply under_chain ensure_under
  intro _ _
  apply under_lift_chain (new_app_permitted _ _ _)
  intro created _
  apply under_chain (checked_permitted _)
  intro strategy _
  apply under_chain (reading_permitted_ok (user_is_admin_reading userId))
  intro isAdmin _
  apply under_chain (build_services_permitted isAdmin)
  intro services built
  apply under_chain ensure_under
  intro _ _
  apply under_chain (reading_permitted_ok (validate_app_reading server _))
  intro _ _
  exact under_return (built_sound built)

theorem prepare_stack_sound (request : StackRequest) :
    Prepares Sound Sound id (prepareStackApp server userId request) := by
  apply under_chain ensure_under
  intro _ _
  apply under_chain ensure_under
  intro _ _
  split
  · exact under_chain (under_throw _ fun _ => False) fun _ absurd => absurd.elim
  · apply under_lift_chain (new_app_permitted _ _ _)
    intro created _
    apply under_chain (checked_permitted _)
    intro envVars _
    apply under_chain (reading_permitted_ok (user_is_admin_reading userId))
    intro isAdmin _
    apply under_chain (build_services_permitted isAdmin)
    intro services built
    apply under_chain ensure_under
    intro _ _
    apply under_chain (reading_permitted_ok (validate_app_reading server _))
    intro _ _
    exact under_return (built_sound built)

variable {requireImages : Bool}

theorem check_new_name {names next : List String} {service : ServiceRequest}
    (passed : checkNewName requireImages names service = .ok next) :
    Text.trim service.name ∉ names ∧ next = names ++ [Text.trim service.name] := by
  unfold checkNewName at passed
  dsimp only at passed
  split_ifs at passed with empty known lacks
  cases passed
  exact ⟨by simpa using known, rfl⟩

/-- The name check lets only names through that no stored service has. -/
theorem check_new_names {services : List ServiceRequest} {names passedNames : List String}
    (passed : services.foldlM (checkNewName requireImages) names = .ok passedNames) :
    ∀ service ∈ services, Text.trim service.name ∉ names := by
  induction services generalizing names with
  | nil => simp
  | cons service services ih =>
      rw [List.foldlM_cons] at passed
      cases first : checkNewName requireImages names service with
      | error error =>
          rw [first] at passed
          cases passed
      | ok next =>
          rw [first] at passed
          obtain ⟨new, extended⟩ := check_new_name first
          intro other member
          rcases List.mem_cons.mp member with same | later
          · rw [same]
            exact new
          · intro old
            apply ih passed other later
            rw [extended]
            exact List.mem_append_left _ old

/-- Services under new names may join those of the project. -/
theorem Sound.append {services added : List ContainerService} (sound : Sound appId services)
    (new : Sound appId added) (apart : ∀ service ∈ added, service.name ∉ services.map (·.name)) :
    Sound appId (services ++ added) where
  names := by
    rw [List.map_append, List.nodup_append]
    refine ⟨sound.names, new.names, ?_⟩
    intro name inServices other inAdded same
    obtain ⟨service, member, rfl⟩ := List.mem_map.mp inAdded
    rw [same] at inServices
    exact apart service member inServices
  trimmed service member := by
    rcases List.mem_append.mp member with old | late
    · exact sound.trimmed service old
    · exact new.trimmed service late
  owned service member := by
    rcases List.mem_append.mp member with old | late
    · exact sound.owned service old
    · exact new.owned service late

variable {addition : ProjectAddition}

theorem add_repository_keeps {app joined : App} (added : addRepository addition app = .ok joined) :
    joined.id = app.id ∧ joined.services = app.services := by
  unfold addRepository at added
  split at added
  · cases added
    exact ⟨rfl, rfl⟩
  · dsimp only at added
    split_ifs at added
    · cases added
      exact ⟨rfl, rfl⟩
    · cases added
      exact ⟨rfl, rfl⟩

theorem add_env_vars_keeps {app extended : App} (added : addEnvVars addition app = .ok extended) :
    extended.id = app.id ∧ extended.services = app.services := by
  unfold addEnvVars at added
  split at added
  · cases added
    exact ⟨rfl, rfl⟩
  · rename_i requests given
    cases built : buildAppEnvVars (some requests) [] with
    | error error =>
        rw [built] at added
        cases added
    | ok vars =>
        rw [built] at added
        cases added
        exact ⟨rfl, rfl⟩

theorem resolve_group_id_permitted (groupId : String) :
    (resolveGroupId server userId groupId).run.Under (Expected Sound) (Permitted Sound Sound)
      (OnOk fun _ => True) := by
  unfold resolveGroupId
  apply under_chain ensure_under
  intro _ _
  split
  · apply under_chain (Queueing.internal_under (get_app_under _))
    intro found _
    split
    · apply under_chain ensure_under
      intro _ _
      exact under_return trivial
    · exact under_throw _ _
  · exact under_throw _ _

theorem prepare_addition_sound (groupId : String) (addition : ProjectAddition) :
    (prepareAddition server userId groupId addition).run.Under (Expected Sound)
      (Permitted Sound Sound) (OnOk fun enlarged =>
        Sound enlarged.app.id enlarged.app.services ∧
          Sound enlarged.previous.id enlarged.previous.services) := by
  unfold prepareAddition
  apply under_chain (resolve_group_id_permitted server userId groupId)
  intro appId _
  apply under_chain (Queueing.internal_under (get_app_under appId))
  intro found held
  split
  · rename_i previous
    have sound := (held previous rfl).2
    apply under_chain ensure_under
    intro _ _
    apply under_chain (checked_under fun names passed => check_new_names passed)
    intro _ newNames
    apply under_chain (checked_under fun joined added => add_repository_keeps added)
    intro joined sameJoined
    apply under_chain (checked_under fun extended added => add_env_vars_keeps added)
    intro extended sameExtended
    apply under_chain (reading_permitted_ok (user_is_admin_reading userId))
    intro isAdmin _
    apply under_chain (build_services_permitted isAdmin)
    intro added built
    have apart : ∀ service ∈ added, service.name ∉ previous.services.map (·.name) := by
      intro service member
      obtain ⟨request, inRequests, origin, -, made⟩ := built.mem member
      rw [made.named]
      exact newNames request inRequests
    have joinedSound : Sound extended.id (previous.services ++ added) := by
      rw [sameExtended.1, sameJoined.1]
      exact sound.append (built_sound built) apart
    split
    · apply under_chain ensure_under
      intro _ _
      apply under_chain (reading_permitted_ok (validate_app_reading server _))
      intro _ _
      apply under_lift_chain (reading_permitted utc_now_reading)
      intro now _
      exact under_return ⟨joinedSound, sound⟩
    · exact under_throw _ _
  · exact under_throw _ _

variable {expects : (op : Op) → op.Answer → Prop} {allowed : Op → Prop}

theorem update_auto_deploy_keeps (draws : allowed .newUuid) (request : AutoDeploySettingsRequest)
    (app : App) : (updateAutoDeploy request app).run.Under expects allowed
      (OnOk fun updated => updated.id = app.id ∧ updated.services = app.services) := by
  unfold updateAutoDeploy
  apply under_chain (checked_under fun _ _ => trivial)
  intro watchPaths _
  split
  · apply under_lift
    unfold ensureDeployWebhookToken
    split
    · apply under_bind.mpr
      apply under_op draws
      intro token _
      exact under_pure.mpr ⟨rfl, rfl⟩
    · exact under_pure.mpr ⟨rfl, rfl⟩
  · exact under_return ⟨rfl, rfl⟩

theorem update_app_settings_keeps (draws : allowed .newUuid) (request : UpdateServiceRequest)
    (app : App) : (updateAppSettings request app).run.Under expects allowed
      (OnOk fun updated => updated.id = app.id ∧ updated.services = app.services) := by
  unfold updateAppSettings
  apply under_chain (checked_under fun _ _ => trivial)
  intro branch _
  apply under_chain (checked_under fun _ _ => trivial)
  intro envVars _
  apply under_chain (checked_under fun _ _ => trivial)
  intro strategy _
  split
  · rename_i autoDeploy _
    exact update_auto_deploy_keeps draws autoDeploy _
  · exact under_return ⟨rfl, rfl⟩

theorem prepare_update_sound (serviceId : Uuid) (request : UpdateServiceRequest) :
    Prepares Sound Sound Updated.app (prepareUpdate server userId serviceId request) := by
  unfold prepareUpdate
  apply under_chain (resolve_owned_app_service_under userId serviceId)
  rintro ⟨current, previousService⟩ sound
  apply under_chain (update_app_settings_keeps trivial request current)
  intro settled kept
  have services : (updatedServices server userId serviceId request.service settled).run.Under
      (Expected Sound) (Permitted Sound Sound) (OnOk (Sound settled.id)) := by
    unfold updatedServices
    split
    · apply under_return
      rw [kept.1, kept.2]
      exact sound
    · apply under_chain (reading_permitted_ok (user_is_admin_reading userId))
      intro isAdmin _
      exact (build_services_permitted isAdmin).ok_mono fun services built => built_sound built
  apply under_chain services
  intro updated updatedSound
  apply under_chain ensure_under
  intro _ _
  split
  · apply under_chain (reading_permitted_ok (validate_app_reading server _))
    intro _ _
    apply under_chain (reading_permitted_ok (plan_mounts_reading server _ _ _))
    intro migrations _
    apply under_chain (reading_permitted_ok (apply_migrations_reading _ _))
    intro moved _
    apply under_lift_chain (reading_permitted utc_now_reading)
    intro now _
    exact under_return updatedSound
  · exact under_throw _ _

theorem prepared_sound : Prepared Sound Sound server where
  repository := prepare_repository_sound server
  stack := prepare_stack_sound server
  addition := prepare_addition_sound server
  update := prepare_update_sound server

theorem task_under (writer : Writer) :
    (task server writer).Under (Expected Sound) (Permitted Sound Sound) fun _ => True :=
  task_permitted (prepared_sound server) sound_resaves writer

/-- What holds of the stored services and snapshots in every reachable state. -/
structure Identified (db : Database) : Prop where
  ids : (db.services.map (·.id)).Nodup
  names : ∀ first ∈ db.services, ∀ second ∈ db.services, first.appId = second.appId →
    first.name = second.name → first = second
  trimmed : ∀ service ∈ db.services, Text.trim service.name = service.name
  snapshots : GoodSnapshots Sound db.deployments

variable {db : Database}

theorem Identified.rows (held : Identified db) (appId : Uuid) :
    Sound appId (db.services.filter (·.appId = appId)) where
  names := by
    apply List.Nodup.map_on
    · intro first inFirst second inSecond same
      obtain ⟨stored, ofApp⟩ := List.mem_filter.mp inFirst
      obtain ⟨storedToo, ofSame⟩ := List.mem_filter.mp inSecond
      have sameApp : first.appId = second.appId :=
        (of_decide_eq_true ofApp).trans (of_decide_eq_true ofSame).symm
      exact held.names first stored second storedToo sameApp same
    · exact (List.Nodup.of_map _ held.ids).filter _
  trimmed service member := held.trimmed service (List.mem_filter.mp member).1
  owned service member := of_decide_eq_true (List.mem_filter.mp member).2

theorem Identified.services (held : Identified db) (appId : Uuid) :
    Sound appId (db.servicesByApp appId) :=
  (held.rows appId).perm (List.perm_insertionSort _ _)

theorem Identified.expected (held : Identified db) (wanted : Query) :
    Expected Sound (.query wanted) (.ok (wanted.read db)) := by
  cases wanted with
  | app id =>
      intro row found
      exact (lookup_eq_some_mem found).2
  | servicesByApp appId => exact held.services appId
  | deployment id =>
      intro row found
      exact held.snapshots row (lookup_eq_some_mem found).1
  | deploymentsByApp appId =>
      intro row member
      have stored : row ∈ db.deployments.filter (·.appId = appId) :=
        (List.mem_insertionSort _).mp member
      exact held.snapshots row (List.mem_filter.mp stored).1
  | _ => trivial

theorem Identified.save_app {after : Database} {app : App} (held : Identified db)
    (sound : Sound app.id app.services) (saved : db.saveApp app = some after) :
    Identified after where
  ids := Database.save_app_service_ids saved held.ids
  names := by
    intro first inFirst second inSecond sameApp same
    rcases Database.save_app_service saved inFirst with newFirst | ⟨oldFirst, otherFirst, -⟩
    · have ownedFirst := sound.owned first newFirst
      rcases Database.save_app_service saved inSecond with newSecond | ⟨-, otherSecond, -⟩
      · exact List.inj_on_of_nodup_map sound.names newFirst newSecond same
      · exact absurd (sameApp.symm.trans ownedFirst) otherSecond
    · rcases Database.save_app_service saved inSecond with newSecond | ⟨oldSecond, -, -⟩
      · exact absurd (sameApp.trans (sound.owned second newSecond)) otherFirst
      · exact held.names first oldFirst second oldSecond sameApp same
  trimmed := by
    intro service stored
    rcases Database.save_app_service saved stored with new | ⟨old, -, -⟩
    · exact sound.trimmed service new
    · exact held.trimmed service old
  snapshots := by
    intro deployment stored
    rw [Database.save_app_deployments saved] at stored
    exact held.snapshots deployment stored

theorem Identified.fewer {db after : Database} (held : Identified db)
    (services : after.services.Sublist db.services)
    (snapshots : GoodSnapshots Sound after.deployments) : Identified after where
  ids := held.ids.sublist (services.map _)
  names first inFirst second inSecond :=
    held.names first (services.subset inFirst) second (services.subset inSecond)
  trimmed service stored := held.trimmed service (services.subset stored)
  snapshots := snapshots

theorem Identified.apply {after : Database} {change : Write} (held : Identified db)
    (permitted : Permitted Sound Sound (.write change)) (applied : change.apply db = some after) :
    Identified after := by
  cases change with
  | saveApp app => exact held.save_app permitted applied
  | deleteApp id =>
      cases applied
      apply held.fewer List.filter_sublist
      intro deployment stored
      exact held.snapshots deployment (List.mem_filter.mp stored).1
  | saveDeployment deployment =>
      obtain ⟨-, services, deployments, -⟩ := Database.save_deployment_shape applied
      apply held.fewer
      · rw [services]
      · intro other stored
        rw [deployments, mem_upsert] at stored
        rcases stored with same | ⟨old, -⟩
        · rw [same]
          exact permitted
        · exact held.snapshots other old
  | deleteDeployment id =>
      cases applied
      refine @Identified.fewer db (db.deleteDeployment id) held (List.Sublist.refl _) ?_
      intro deployment stored
      obtain ⟨row, inRows, rfl⟩ := List.mem_map.mp stored
      have kept := held.snapshots row (List.mem_filter.mp inRows).1
      split
      · exact kept
      · exact kept
  | saveServiceDeployment row =>
      rw [Database.save_service_deployment_shape applied]
      exact held.fewer (List.Sublist.refl _) held.snapshots
  | appendDeploymentLog id line =>
      rw [Database.append_deployment_log_shape applied]
      exact held.fewer (List.Sublist.refl _) held.snapshots

/-- One call of a writer. -/
theorem identified_step {op : Op} {before after : World} {answer : op.Answer}
    (held : Identified before.db) (permitted : Permitted Sound Sound op)
    (possible : Possible op before answer after) :
    Identified after.db ∧ Expected Sound op answer := by
  cases op with
  | query wanted =>
      obtain ⟨same, answered | ⟨message, failed⟩⟩ := possible_query possible
      · rw [same, answered]
        exact ⟨held, held.expected wanted⟩
      · rw [same, failed]
        refine ⟨held, ?_⟩
        cases wanted <;> trivial
  | write change =>
      rcases possible_write possible with ⟨done, db, applied, same⟩ | ⟨same, message, failed⟩
      · rw [same, done]
        refine ⟨held.apply permitted applied, ?_⟩
        cases change with
        | saveApp app => exact permitted
        | _ => trivial
      · rw [same, failed]
        refine ⟨held, ?_⟩
        cases change <;> trivial
  | _ =>
      rw [possible_db possible (by simp)]
      exact ⟨held, trivial⟩

def Exact (db : Database) : (op : Op) → op.Answer → Prop
  | .query wanted, .ok row => row = wanted.read db
  | _, _ => True

section Alone

variable {db : Database}

theorem reading_exact {Error Value : Type} {program : Sys (Except Error Value)}
    (calls : program.Calls Op.Reading) :
    program.Under (Exact db) Op.Reading (OnOk fun _ => True) := calls.under_ok

theorem query_exact (wanted : Query) :
    (Store.query wanted).run.Under (Exact db) Op.Reading
      (OnOk fun row => row = wanted.read db) := by
  apply under_op trivial
  intro answer exact
  cases answer with
  | ok row => exact exact
  | error message => trivial

theorem get_app_exact (id : Uuid) :
    (Store.getApp id).run.Under (Exact db) Op.Reading (OnOk fun found =>
      ∀ app, found = some app → app.services = db.servicesByApp app.id) := by
  apply under_chain (query_exact (.app id))
  intro row _
  split
  · apply under_return
    intro app absurd
    cases absurd
  · apply under_chain (query_exact (.servicesByApp _))
    intro services read
    apply under_return
    intro app same
    cases same
    exact read

theorem resolve_owned_app_service_exact (userId serviceId : Uuid) :
    (resolveOwnedAppServiceRecord userId serviceId).run.Under (Exact db) Op.Reading
      (OnOk fun found => found.1.services = db.servicesByApp found.1.id) := by
  have resolved : (resolveOwnedServiceRecord userId serviceId).run.Under (Exact db) Op.Reading
      (OnOk fun found => ∀ pair, found = some pair →
        pair.1.services = db.servicesByApp pair.1.id) := by
    apply under_chain (reading_exact (or_internal_calls (op_calls trivial)))
    intro row _
    split
    · apply under_chain (Queueing.internal_under (get_app_exact _))
      intro found exact
      split
      · rename_i app
        apply under_chain ensure_under
        intro _ _
        apply under_return
        intro pair same
        cases same
        exact exact app rfl
      · exact under_throw _ _
    · apply under_chain (reading_exact (resolve_managed_record_reading userId serviceId))
      intro _ _
      apply under_return
      intro pair absurd
      cases absurd
  apply under_chain resolved
  intro found exact
  split
  · rename_i pair
    exact under_return (exact pair rfl)
  · exact under_throw _ _

theorem carry_rename_ids (serviceId : Uuid) (name : String) (services : List ContainerService) :
    (carryRename serviceId name services).map (·.id) = services.map (·.id) := by
  induction services with
  | nil => rfl
  | cons service services ih =>
      unfold carryRename
      split
      · rfl
      · rw [List.map_cons, List.map_cons, ih]

variable {request : ServiceRequest}

theorem update_requests_absent {serviceId : Uuid} {services : List ContainerService}
    (absent : serviceId ∉ services.map (·.id)) :
    updateRequests serviceId request services = services.map serviceRequestFromModel := by
  apply List.map_congr_left
  intro service member
  apply if_neg
  intro same
  rw [← same] at absent
  exact absent (List.mem_map_of_mem member)

/-- The requests ask for the names of the records they are to be matched with. -/
theorem update_requests_names {serviceId : Uuid} {request : ServiceRequest}
    {services : List ContainerService} (unique : (services.map (·.id)).Nodup)
    (trimmed : ∀ service ∈ services, Text.trim service.name = service.name) :
    (updateRequests serviceId request services).map (fun request => Text.trim request.name) =
      (carryRename serviceId (Text.trim request.name) services).map (·.name) := by
  have modelled : ∀ rest : List ContainerService,
      (∀ service ∈ rest, Text.trim service.name = service.name) →
      (rest.map serviceRequestFromModel).map (fun request => Text.trim request.name) =
        rest.map (·.name) := by
    intro rest trimmedRest
    rw [List.map_map]
    apply List.map_congr_left
    intro service member
    exact trimmedRest service member
  induction services with
  | nil => rfl
  | cons service services ih =>
      rw [List.map_cons, List.nodup_cons] at unique
      have later := fun other member => trimmed other (List.mem_cons_of_mem service member)
      by_cases same : service.id = serviceId
      · have absent : serviceId ∉ services.map (·.id) := by
          rw [← same]
          exact unique.1
        have requests : updateRequests serviceId request (service :: services) =
            request :: services.map serviceRequestFromModel := by
          rw [← update_requests_absent absent]
          unfold updateRequests
          rw [List.map_cons, if_pos same]
        rw [requests, carryRename, if_pos same, List.map_cons, List.map_cons, modelled _ later]
      · have requests : updateRequests serviceId request (service :: services) =
            serviceRequestFromModel service :: updateRequests serviceId request services := by
          unfold updateRequests
          rw [List.map_cons, if_neg same]
        have own : Text.trim (serviceRequestFromModel service).name = service.name :=
          trimmed service List.mem_cons_self
        rw [requests, carryRename, if_neg same, List.map_cons, List.map_cons, own,
          ih unique.2 later]

variable {drawn : Uuid → Prop} {appId : Uuid} {crates : Crates}

variable {requests : List ServiceRequest}

/-- Requests under distinct names find the records of these names, in order. -/
theorem matched_ids {existing records : List ContainerService} {services : List ContainerService}
    (each : List.Forall₂ (Built crates appId existing drawn) requests services)
    (named : requests.map (fun request => Text.trim request.name) = records.map (·.name))
    (found : ∀ record ∈ records, lookup (·.name) record.name existing.reverse = some record) :
    services.map (·.id) = records.map (·.id) := by
  induction each generalizing records with
  | nil =>
      have none_ : records = [] := by simpa using named.symm
      rw [none_, List.map_nil]
  | cons first rest ih =>
      cases records with
      | nil => cases named
      | cons record records =>
          rw [List.map_cons, List.map_cons, List.cons.injEq] at named
          obtain ⟨origin, came, made⟩ := first
          have own := found record List.mem_cons_self
          have sameOrigin : origin = record := by
            rw [named.1] at came
            cases came with
            | stored stored =>
                rw [own] at stored
                exact (Option.some.inj stored).symm
            | new missing issued bare =>
                rw [own] at missing
                cases missing
          have others := ih named.2 fun other member =>
            found other (List.mem_cons_of_mem _ member)
          rw [List.map_cons, List.map_cons, others, made.sameId, sameOrigin]

theorem forall_built_names {existing : List ContainerService} {services : List ContainerService}
    (each : List.Forall₂ (Built crates appId existing drawn) requests services) :
    services.map (·.name) = requests.map (fun request => Text.trim request.name) := by
  induction each with
  | nil => rfl
  | cons first rest ih =>
      obtain ⟨origin, -, made⟩ := first
      rw [List.map_cons, List.map_cons, ih, made.named]

theorem update_keeps_ids {serviceId : Uuid} {stored services : List ContainerService}
    (unique : (stored.map (·.id)).Nodup)
    (trimmed : ∀ service ∈ stored, Text.trim service.name = service.name)
    (built : AllBuilt crates appId (carryRename serviceId (Text.trim request.name) stored) drawn []
      (updateRequests serviceId request stored) services) :
    services.map (·.id) = stored.map (·.id) := by
  have named := @update_requests_names serviceId request stored unique trimmed
  have distinct : ((carryRename serviceId (Text.trim request.name) stored).map (·.name)).Nodup := by
    rw [← named, ← forall_built_names built.each]
    exact built.distinct
  rw [← carry_rename_ids serviceId (Text.trim request.name) stored]
  apply matched_ids built.each named
  intro record member
  apply lookup_of_mem
  · rw [List.map_reverse]
    exact List.nodup_reverse.mpr distinct
  · exact List.mem_reverse.mpr member

/-- What an update hands over to be saved. -/
structure Kept (db : Database) (appId : Uuid) (services : List ContainerService) : Prop where
  sound : Sound appId services
  sameIds : services.map (·.id) = (db.servicesByApp appId).map (·.id)

theorem Identified.app_ids (held : Identified db) (appId : Uuid) :
    ((db.servicesByApp appId).map (·.id)).Nodup := by
  have sorted : (db.servicesByApp appId).Perm (db.services.filter (·.appId = appId)) :=
    List.perm_insertionSort _ _
  rw [(sorted.map _).nodup_iff]
  exact held.ids.sublist (List.filter_sublist.map _)

theorem updated_services_kept (held : Identified db) (server : Server) (userId serviceId : Uuid)
    (request : Option ServiceRequest) (app : App)
    (read : app.services = db.servicesByApp app.id) :
    (updatedServices server userId serviceId request app).run.Under (Exact db) Op.Reading
      (OnOk (Kept db app.id)) := by
  have sound := held.services app.id
  unfold updatedServices
  split
  · apply under_return
    rw [read]
    exact ⟨sound, rfl⟩
  · rename_i given
    apply under_chain (reading_exact (user_is_admin_reading userId))
    intro isAdmin _
    have built := @build_services_under server.crates app.id
      (carryRename serviceId (Text.trim given.name) app.services) (fun _ => True) isAdmin
      Op.Reading _ (updateRequests serviceId given app.services)
    have exact : (buildServices server.crates app.id
        (carryRename serviceId (Text.trim given.name) app.services)
        (updateRequests serviceId given app.services) isAdmin).run.Under (Exact db) Op.Reading _ :=
      built.expecting fun op answer _ => by
        cases op with
        | newUuid => trivial
        | _ => trivial
    apply exact.ok_mono
    intro services all
    refine ⟨built_sound all, ?_⟩
    rw [read] at all
    exact update_keeps_ids (held.app_ids app.id) sound.trimmed all

theorem prepare_update_kept (held : Identified db) (server : Server) (userId serviceId : Uuid)
    (request : UpdateServiceRequest) :
    (prepareUpdate server userId serviceId request).run.Under (Exact db) Op.Reading
      (OnOk fun updated => Kept db updated.app.id updated.app.services) := by
  unfold prepareUpdate
  apply under_chain (resolve_owned_app_service_exact userId serviceId)
  rintro ⟨current, previousService⟩ read
  apply under_chain (update_app_settings_keeps trivial request current)
  intro settled kept
  have readSettled : settled.services = db.servicesByApp settled.id := by
    rw [kept.1, kept.2]
    exact read
  apply under_chain (updated_services_kept held server userId serviceId request.service settled
    readSettled)
  intro services keptServices
  apply under_chain ensure_under
  intro _ _
  split
  · apply under_chain (reading_exact (validate_app_reading server _))
    intro _ _
    apply under_chain (reading_exact (plan_mounts_reading server _ _ _))
    intro migrations _
    apply under_chain (reading_exact (apply_migrations_reading _ _))
    intro moved _
    apply under_lift_chain utc_now_reading.under
    intro now _
    exact under_return keptServices
  · exact under_throw _ _

def SameIds (before after : Database) : Prop :=
  ∀ appId, ((after.servicesByApp appId).map (·.id)).Perm ((before.servicesByApp appId).map (·.id))

theorem mem_services_by_app {service : ContainerService} :
    service ∈ db.servicesByApp appId ↔ service ∈ db.services ∧ service.appId = appId := by
  have sorted : service ∈ db.servicesByApp appId ↔
      service ∈ db.services.filter (·.appId = appId) := List.mem_insertionSort _
  rw [sorted, List.mem_filter, decide_eq_true_eq]

/-- Saving what an update hands over neither loses an id nor moves one to another app. -/
theorem Kept.save {after : Database} {app : App} (held : Identified db)
    (kept : Kept db app.id app.services) (saved : db.saveApp app = some after) :
    SameIds db after := by
  have heldAfter := held.save_app kept.sound saved
  intro appId
  rw [List.perm_ext_iff_of_nodup (heldAfter.app_ids appId) (held.app_ids appId)]
  intro id
  simp only [List.mem_map, mem_services_by_app]
  constructor
  · rintro ⟨row, ⟨stored, ofApp⟩, sameId⟩
    rcases Database.save_app_service saved stored with written | ⟨old, -, -⟩
    · have inIds : row.id ∈ (db.servicesByApp app.id).map (·.id) := by
        rw [← kept.sameIds]
        exact List.mem_map_of_mem written
      obtain ⟨before, member, same⟩ := List.mem_map.mp inIds
      obtain ⟨storedBefore, ofSaved⟩ := mem_services_by_app.mp member
      refine ⟨before, ⟨storedBefore, ?_⟩, same.trans sameId⟩
      rw [ofSaved, ← ofApp]
      exact (kept.sound.owned row written).symm
    · exact ⟨row, ⟨old, ofApp⟩, sameId⟩
  · rintro ⟨row, ⟨stored, ofApp⟩, sameId⟩
    by_cases ofSaved : row.appId = app.id
    · have inIds : row.id ∈ app.services.map (·.id) := by
        rw [kept.sameIds]
        exact List.mem_map_of_mem (mem_services_by_app.mpr ⟨stored, ofSaved⟩)
      obtain ⟨service, written, same⟩ := List.mem_map.mp inIds
      obtain ⟨found, storedAfter, sameRow, inServices⟩ :=
        Database.save_app_services saved service written
      refine ⟨found, ⟨storedAfter, ?_⟩, (sameRow.trans same).trans sameId⟩
      rw [kept.sound.owned found inServices, ← ofSaved, ofApp]
    · have otherId : row.id ∉ app.services.map (·.id) := by
        rw [kept.sameIds]
        intro member
        obtain ⟨other, inApp, same⟩ := List.mem_map.mp member
        obtain ⟨storedOther, ofOther⟩ := mem_services_by_app.mp inApp
        rw [List.inj_on_of_nodup_map held.ids storedOther stored same] at ofOther
        exact ofSaved ofOther
      exact ⟨row, ⟨Database.save_app_service_other saved held.ids stored ofSaved otherId, ofApp⟩,
        sameId⟩

theorem exact_of_possible {op : Op} {before after : World} {answer : op.Answer}
    (same : before.db = db) (possible : Possible op before answer after) :
    Exact db op answer := by
  cases op with
  | query wanted =>
      obtain ⟨-, answered | ⟨message, failed⟩⟩ := possible_query possible
      · rw [answered, same]
        rfl
      · rw [failed]
        trivial
  | _ => trivial

theorem reading_keeps_db {op : Op} {before after : World} {answer : op.Answer}
    (reading : Op.Reading op) (possible : Possible op before answer after) :
    after.db = before.db := by
  cases op with
  | write change => exact reading.elim
  | _ => exact possible_db possible (by simp)

/-- A preparation that only reads works on what is stored. -/
theorem exact_always {Value : Type} {program : Sys Value} {post : Value → Prop}
    (under : program.Under (Exact db) Op.Reading post) {world : World} (start : world.db = db) :
    program.Always Possible (fun _ op => Op.Reading op)
      (fun value after => post value ∧ after.db = db) world := by
  have keeps : ∀ op before answer after, Op.Reading op → World.db before = db →
      Possible op before answer after → after.db = db :=
    fun op before answer after reading same possible =>
      (reading_keeps_db reading possible).trans same
  have answers : ∀ op before answer after, World.db before = db →
      Possible op before answer after → Exact db op answer :=
    fun op before answer after same possible => exact_of_possible same possible
  exact @Under.always Effects Value _ _ World Possible (fun state => state.db = db) program post
    under answers keeps world start

theorem update_service_alone (server : Server) (userId serviceId : Uuid)
    (request : UpdateServiceRequest) {world : World} (held : Identified world.db) :
    (updateService server userId serviceId request).run.Ensures Possible
      (fun _ after => SameIds world.db after.db) world := by
  have unchanged : ∀ after : World, after.db = world.db → SameIds world.db after.db := by
    intro after same appId
    rw [same]
  unfold updateService
  apply always_run_bind.mpr
  have prepared := exact_always (prepare_update_kept held server userId serviceId request) rfl
  apply (prepared.restrict (fun _ _ _ _ possible => possible) fun _ _ _ => trivial).mono
  intro result after kept
  cases result with
  | error error => exact unchanged after kept.2
  | ok updated =>
      apply always_run_bind.mpr
      apply always_run_lift_bind.mpr
      apply always_op trivial
      intro saved final possible
      rcases possible_write possible with ⟨done, db, applied, same⟩ | ⟨same, message, failed⟩
      · rw [done]
        apply always_run_pure.mpr
        apply always_run_pure.mpr
        rw [same]
        rw [kept.2] at applied
        exact kept.1.save held applied
      · rw [failed]
        apply always_run_lift_bind.mpr
        have start : final.db = world.db := by
          rw [same]
          exact kept.2
        have undone := exact_always (undo_migrations_reading updated.moved).under start
        apply (undone.restrict (fun _ _ _ _ possible => possible) fun _ _ _ => trivial).mono
        intro _ last stayed
        apply always_run_throw.mpr
        exact unchanged last stayed.2

end Alone

section Stable

variable {Thread : Type} [DecidableEq Thread]

def writing (servers : Thread → Server) (writers : Thread → Writer) :
    Pool Effects Thread Unit World :=
  ⟨fun thread => task (servers thread) (writers thread), World.empty⟩

theorem identified_empty : Identified Database.empty where
  ids := List.nodup_nil
  names _ member := absurd member List.not_mem_nil
  trimmed _ member := absurd member List.not_mem_nil
  snapshots _ member := absurd member List.not_mem_nil

theorem writing_identified {servers : Thread → Server} {writers : Thread → Writer}
    {history : List (Event Effects Thread)} {pool : Pool Effects Thread Unit World}
    (trace : Pool.Trace Possible (fun _ _ _ => True) (writing servers writers) history pool) :
    Identified pool.state.db := by
  have kept := trace.under (fun _ pool => Identified pool.state.db)
    (fun thread => task_under (servers thread) (writers thread)) identified_empty ?_
  · exact kept.1
  · intro history pool event after held permitted taken _
    obtain ⟨next, -, possible, -⟩ := taken.own
    exact identified_step held permitted possible

/-- In every state that creations, updates, additions, deletions, deployments and the worker's
rollbacks reach in any order, names and ids of an app's services are distinct, and an update
run from there on its own keeps the ids, whatever name it asks for. -/
theorem service_identity_stable (servers : Thread → Server) (writers : Thread → Writer)
    {history : List (Event Effects Thread)} {pool : Pool Effects Thread Unit World}
    (trace : Pool.Trace Possible (fun _ _ _ => True) (writing servers writers) history pool) :
    (∀ appId, ((pool.state.db.servicesByApp appId).map (·.name)).Nodup ∧
      ((pool.state.db.servicesByApp appId).map (·.id)).Nodup) ∧
    ∀ server userId serviceId request result final,
      Runs Possible (updateService server userId serviceId request).run pool.state result final →
        SameIds pool.state.db final.db := by
  have held := writing_identified trace
  refine ⟨fun appId => ⟨(held.services appId).names, held.app_ids appId⟩, ?_⟩
  intro server userId serviceId request result final run
  exact (update_service_alone server userId serviceId request held).runs run

end Stable

def demoCrates : Crates where
  toLowercase text := text
  debug text := text
  parseCron _ := .ok ()
  parseIp text := some text
  parseUuid _ := none

def demoServer : Server where
  crates := demoCrates
  baseDomain := "example.com"
  publicIp := some "203.0.113.7"
  httpPort := 80
  httpsPort := 443
  apiPort := 2077
  dataDir := "/data"
  issuesCertificates := false
  updatesProxy := false

def demoServiceRequest (name : String) : ServiceRequest where
  name := name
  image := some "nginx"
  serviceType := some "private_service"
  port := 80
  exposeHttp := none
  domains := none
  domain := none
  httpOnlyDomains := none
  additionalPorts := none
  replicas := none
  memoryLimitMb := none
  cpuLimit := none
  dependsOn := none
  healthCheck := none
  restartPolicy := none
  registryAuth := none
  envVars := none
  buildContext := none
  dockerfilePath := none
  buildTarget := none
  buildArgs := none
  command := none
  entrypoint := none
  workingDir := none
  schedule := none
  mounts := none
  notes := none
  basicAuth := none
  loginGate := none
  portMappings := none
  files := none

/-- One user creates a stack with the service `web`. -/
def demoWriting : Pool Effects Unit Unit World :=
  writing (fun _ => demoServer)
    (fun _ => .createStack ⟨7⟩ ⟨"shop", none, [demoServiceRequest "web"]⟩)

def demoRename : UpdateServiceRequest :=
  ⟨none, none, none, none, none, some (demoServiceRequest "api")⟩

/-- The service is renamed and keeps its id. -/
theorem service_identity_renamed :
    ∃ history pool result final,
      Pool.Trace Possible (fun _ _ _ => True) demoWriting history pool ∧
      Runs Possible (updateService demoServer ⟨7⟩ ⟨3⟩ demoRename).run pool.state result final ∧
      (pool.state.db.servicesByApp ⟨1⟩).map (·.name) = ["web"] ∧
      (final.db.servicesByApp ⟨1⟩).map (·.name) = ["api"] ∧
      SameIds pool.state.db final.db := by
  have ran : ((Pool.execute system (turns [((), 8)]) demoWriting).map fun run =>
      ((run.2.state.db.servicesByApp ⟨1⟩).map (·.name),
        (((updateService demoServer ⟨7⟩ ⟨3⟩ demoRename).run.run system calm
          run.2.state).2.db.servicesByApp ⟨1⟩).map (·.name))) = some (["web"], ["api"]) := by
    decide +kernel
  obtain ⟨⟨history, pool⟩, executed, names⟩ := Option.map_eq_some_iff.mp ran
  have trace := Pool.Trace.of_execute turns_admitted executed
  have run := runs_run system calm calm_admitted
    (updateService demoServer ⟨7⟩ ⟨3⟩ demoRename).run pool.state
  refine ⟨history, pool, _, _, trace, run, congrArg Prod.fst names, congrArg Prod.snd names, ?_⟩
  exact (service_identity_stable _ _ trace).2 _ _ _ _ _ _ run

end Containr.Api.Services
