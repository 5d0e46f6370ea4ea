import Containr.Api.Identity

/-!
# Rollbacks

`rollback_service_deployment` of `containr-api/src/domain/services/mod.rs` asks about the
services the app has now, the worker rolls out the services the target deployment stored. An
accepted rollback gets an image for every service exactly when the question would have been
answered the same way about the stored services.
-/

namespace Containr.Api.Services

open Containr.Effect Containr.Effect.Program Containr.Worker

/-- A service without a recorded image of the target needs a configured one, unless the whole
deployment has an image. -/
def canRollbackToDeployment (app : App) (target : Deployment) : Bool :=
  target.imageId.isSome || app.services.all fun service =>
    target.serviceDeployments.any (fun row => row.serviceId = service.id && row.imageId.isSome) ||
      !service.image.isEmpty

def rollbackTarget (userId serviceId targetId : Uuid) :
    Handler (App × ContainerService × Deployment) := do
  let (app, service) ← resolveOwnedAppServiceRecord userId serviceId
  let some target ← orInternal (Store.getDeployment targetId)
    | throw (notFound "deployment not found")
  ensure (target.appId = app.id && deploymentHasServiceImage target service)
    (notFound "deployment not found")
  ensure (canRollbackToDeployment app target)
    (badRequest "target deployment cannot be rolled back (missing image artifact)")
  return (app, service, target)

def rollbackRequest (userId : Uuid) (app : App) (target : Deployment) (targetId : Uuid)
    (strategy : RolloutStrategy) : DeploymentRequest where
  ownerId := userId
  app := app
  commitSha := target.commitSha
  commitMessage := some ("rollback to deployment " ++ targetId.toString)
  branch := app.branch
  rolloutStrategy := strategy
  rollbackFromDeploymentId := some targetId
  sourceOverride := none
  cleanupStaleDeployments := false
  localBuildServiceId := none

def rollbackServiceDeployment (userId serviceId targetId : Uuid) (strategy : Option String) :
    Handler Deployment := do
  let (app, _, target) ← rollbackTarget userId serviceId targetId
  let strategy ← checked (resolveRolloutStrategy strategy app.rolloutStrategy)
  queueDeployment (rollbackRequest userId app target targetId strategy)

theorem rollback_service_image_ok (source : Deployment) (service : ContainerService) :
    (∃ image, rollbackServiceImage source service = .ok image) ↔
      source.imageId.isSome ∨
        source.serviceDeployments.any (fun row => row.serviceId = service.id && row.imageId.isSome) ∨
        !service.image.isEmpty := by
  unfold rollbackServiceImage
  cases found : source.serviceDeployments.find? fun row =>
      row.serviceId = service.id && row.imageId.isSome with
  | some row =>
      have passed := List.find?_some found
      have member := List.mem_of_find?_eq_some found
      have recorded : source.serviceDeployments.any
          (fun row => row.serviceId = service.id && row.imageId.isSome) = true :=
        List.any_eq_true.mpr ⟨row, member, passed⟩
      rw [Bool.and_eq_true] at passed
      obtain ⟨image, stored⟩ := Option.isSome_iff_exists.mp passed.2
      rw [Option.bind_some, stored]
      exact ⟨fun _ => Or.inr (Or.inl recorded), fun _ => ⟨image, rfl⟩⟩
  | none =>
      have absent : source.serviceDeployments.any
          (fun row => row.serviceId = service.id && row.imageId.isSome) = false := by
        rw [List.any_eq_false]
        exact List.find?_eq_none.mp found
      rw [Option.bind_none, absent]
      cases configured : service.image.isEmpty with
      | false => simp
      | true =>
          cases stored : source.imageId with
          | none => simp
          | some image => simp

/-- The predicate of the handler asks for an image of every service. -/
theorem can_rollback_iff (app : App) (target : Deployment) :
    canRollbackToDeployment app target = true ↔
      ∀ service ∈ app.services, ∃ image, rollbackServiceImage target service = .ok image := by
  simp only [rollback_service_image_ok]
  unfold canRollbackToDeployment
  rw [Bool.or_eq_true, List.all_eq_true]
  constructor
  · rintro (whole | each) service member
    · exact Or.inl whole
    · exact Or.inr (by simpa using each service member)
  · intro each
    by_cases whole : target.imageId.isSome = true
    · exact Or.inl whole
    · refine Or.inr fun service member => ?_
      rcases each service member with all | own
      · exact absurd all whole
      · simpa using own

def ImagesResolved (app : App) (source : Deployment) : Prop :=
  ∃ images, resolveRollbackServiceImages app source = .ok images ∧
    ∀ service ∈ app.services, ∃ image, images.get service.id = some image

theorem resolve_images_fold (source : Deployment) (services : List ContainerService)
    (start : ServiceImages)
    (each : ∀ service ∈ services, ∃ image, rollbackServiceImage source service = .ok image) :
    ∃ images, services.foldlM (fun (images : ServiceImages) service =>
        (rollbackServiceImage source service).map (images.insert service.id)) start = .ok images ∧
      (∀ service ∈ services, ∃ image, images.get service.id = some image) ∧
      ∀ id, (∃ image, start.get id = some image) → ∃ image, images.get id = some image := by
  induction services generalizing start with
  | nil => exact ⟨start, rfl, by simp, fun id known => known⟩
  | cons service services ih =>
      obtain ⟨image, chosen⟩ := each service List.mem_cons_self
      obtain ⟨images, resolved, later, kept⟩ := ih (start.insert service.id image)
        fun other member => each other (List.mem_cons_of_mem _ member)
      have own : ∃ found, images.get service.id = some found := by
        apply kept
        rw [images_get_insert, if_pos rfl]
        exact ⟨image, rfl⟩
      refine ⟨images, ?_, ?_, ?_⟩
      · rw [List.foldlM_cons, chosen]
        exact resolved
      · intro other member
        rcases List.mem_cons.mp member with same | inRest
        · rw [same]
          exact own
        · exact later other inRest
      · intro id known
        apply kept
        rw [images_get_insert]
        split_ifs with same
        · exact ⟨image, rfl⟩
        · exact known

theorem resolve_images_ok {source : Deployment} {services : List ContainerService}
    {start images : ServiceImages}
    (resolved : services.foldlM (fun (images : ServiceImages) service =>
      (rollbackServiceImage source service).map (images.insert service.id)) start = .ok images) :
    ∀ service ∈ services, ∃ image, rollbackServiceImage source service = .ok image := by
  induction services generalizing start with
  | nil => simp
  | cons service services ih =>
      rw [List.foldlM_cons] at resolved
      cases chosen : rollbackServiceImage source service with
      | error message =>
          rw [chosen] at resolved
          cases resolved
      | ok image =>
          rw [chosen] at resolved
          intro other member
          rcases List.mem_cons.mp member with same | inRest
          · rw [same]
            exact ⟨image, chosen⟩
          · exact ih resolved other inRest

/-- The worker finds its images exactly when the handler's question is answered by yes
about the services it rolls out. -/
theorem images_resolved_iff (app : App) (source : Deployment) :
    ImagesResolved app source ↔ canRollbackToDeployment app source = true := by
  rw [can_rollback_iff]
  constructor
  · rintro ⟨images, resolved, -⟩
    exact resolve_images_ok resolved
  · intro each
    obtain ⟨images, resolved, all, -⟩ := resolve_images_fold source app.services [] each
    exact ⟨images, resolved, all⟩

/-- What the handler has checked about the records it read. -/
structure Accepted (db : Database) (targetId : Uuid) (app : App) (service : ContainerService)
    (target : Deployment) : Prop where
  current : app.services = db.servicesByApp app.id
  stored : db.getDeployment targetId = some target
  sameApp : target.appId = app.id
  hasImage : deploymentHasServiceImage target service = true
  canRollback : canRollbackToDeployment app target = true

section Exact

variable {db : Database}

theorem get_deployment_exact (id : Uuid) :
    (Store.getDeployment id).run.Under (Exact db) Op.Reading
      (OnOk fun found => found = db.getDeployment id) := by
  apply under_chain (query_exact (.deployment id))
  intro row read
  split
  · apply under_return
    unfold Database.getDeployment
    rw [show db.deploymentRow id = none from read.symm]
    rfl
  · rename_i found
    apply under_chain (query_exact (.serviceDeployments id))
    intro rows readRows
    apply under_return
    unfold Database.getDeployment
    rw [show db.deploymentRow id = some found from read.symm, readRows]
    rfl

theorem rollback_target_exact (userId serviceId targetId : Uuid) :
    (rollbackTarget userId serviceId targetId).run.Under (Exact db) Op.Reading
      (OnOk fun found => Accepted db targetId found.1 found.2.1 found.2.2) := by
  apply under_chain (resolve_owned_app_service_exact userId serviceId)
  rintro ⟨app, service⟩ current
  apply under_chain (Queueing.internal_under (get_deployment_exact targetId))
  intro found read
  split
  · rename_i target
    apply under_chain ensure_under
    intro _ ofApp
    apply under_chain ensure_under
    intro _ accepted
    have checks := Bool.and_eq_true_iff.mp ofApp
    exact under_return ⟨current, read.symm, of_decide_eq_true checks.1, checks.2, accepted⟩
  · exact under_throw _ _

end Exact

/-- The record of a queued deployment stores the app it was asked for. -/
theorem queue_deployment_record (request : DeploymentRequest) :
    (queueDeployment request).run.Under (fun _ _ => True) (fun _ => True)
      (OnOk fun deployment => ∃ id now source, deployment = request.deployment id now source) := by
  have anything : ∀ {Error Value : Type} (program : Sys (Except Error Value)),
      program.Under (fun _ _ => True) (fun _ => True) (OnOk fun _ => True) := by
    intro Error Value program
    apply Calls.under_ok
    exact program.calls_anything
  apply under_chain (anything _)
  intro source _
  apply under_lift_chain newUuid.calls_anything.under
  intro id _
  apply under_lift_chain utcNow.calls_anything.under
  intro now _
  apply under_chain (anything _)
  intro _ _
  apply under_chain (anything _)
  intro _ _
  apply under_lift_chain (Program.calls_anything _).under
  intro _ _
  exact under_return ⟨id, now, source, rfl⟩

theorem rollback_accepted (userId serviceId targetId : Uuid) (strategy : Option String)
    (world : World) :
    (rollbackServiceDeployment userId serviceId targetId strategy).run.Ensures Possible
      (fun result _ => ∀ deployment, result = .ok deployment →
        ∃ app service target, Accepted world.db targetId app service target ∧
          deployment.appSnapshot = some app ∧
          deployment.rollbackFromDeploymentId = some targetId) world := by
  unfold rollbackServiceDeployment
  apply always_run_bind.mpr
  have start : world.db = world.db := rfl
  have read := exact_always (rollback_target_exact userId serviceId targetId) start
  apply (read.restrict (fun _ _ _ _ possible => possible) fun _ _ _ => trivial).mono
  rintro (error | ⟨app, service, target⟩) after ⟨accepted, -⟩
  · intro deployment absurd
    cases absurd
  · apply always_run_bind.mpr
    apply always_pure.mpr
    cases resolveRolloutStrategy strategy app.rolloutStrategy with
    | error error =>
        intro deployment absurd
        cases absurd
    | ok strategy =>
        have queued := (queue_deployment_record
          (rollbackRequest userId app target targetId strategy)).anywhere Possible after
        apply queued.mono
        intro result final held deployment same
        rw [same] at held
        obtain ⟨id, now, source, rfl⟩ := held
        exact ⟨app, service, target, accepted, rfl, rfl⟩

/-- A rollback that was accepted finds an image for every service that the worker rolls out
exactly when the target stores no services or the handler's question would have been answered
by yes about those it stores. -/
theorem rollback_carried_out_iff {userId serviceId targetId : Uuid} {strategy : Option String}
    {world final : World} {deployment : Deployment}
    (accepted : Runs Possible (rollbackServiceDeployment userId serviceId targetId strategy).run
      world (.ok deployment) final) :
    ∃ target, world.db.getDeployment targetId = some target ∧
      ∀ currentApp, ImagesResolved (resolveDeploymentApp currentApp deployment (some target)) target ↔
        target.appSnapshot.all (canRollbackToDeployment · target) = true := by
  obtain ⟨app, service, target, checks, snapshot, -⟩ :=
    (rollback_accepted userId serviceId targetId strategy world).runs accepted deployment rfl
  refine ⟨target, checks.stored, fun currentApp => ?_⟩
  rw [images_resolved_iff]
  unfold resolveDeploymentApp
  cases stored : target.appSnapshot with
  | some old => simp [stored]
  | none => simp [stored, snapshot, checks.canRollback]

def demoSourceApp : App :=
  { demoApp with services := [{ demoService with image := "" }] }

/-- A deployment of `demoSourceApp` that failed before it had built anything. -/
def demoUnbuilt : Deployment :=
  { Deployment.new ⟨5⟩ 0 demoApp.id "manual" with
    appSnapshot := some demoSourceApp
    status := .failed }

def demoSwitched (target : Deployment) : World :=
  { demoWorld with db := { demoWorld.db with deployments := [target] } }

/-- The configured image of the service today makes the handler accept a target whose stored
service has none. -/
theorem rollback_accepted_without_image :
    ∃ deployment final target,
      Runs Possible (rollbackServiceDeployment demoApp.ownerId demoService.id ⟨5⟩ none).run
        (demoSwitched demoUnbuilt) (.ok deployment) final ∧
      (demoSwitched demoUnbuilt).db.getDeployment ⟨5⟩ = some target ∧
      ∀ currentApp, ¬ImagesResolved (resolveDeploymentApp currentApp deployment (some target))
        target := by
  have ran : (((rollbackServiceDeployment demoApp.ownerId demoService.id ⟨5⟩ none).run.run system
      calm (demoSwitched demoUnbuilt)).1.toOption.isSome) = true := by decide +kernel
  have run := runs_run system calm calm_admitted
    (rollbackServiceDeployment demoApp.ownerId demoService.id ⟨5⟩ none).run
    (demoSwitched demoUnbuilt)
  generalize (rollbackServiceDeployment demoApp.ownerId demoService.id ⟨5⟩ none).run.run system calm
    (demoSwitched demoUnbuilt) = outcome at ran run
  obtain ⟨result, final⟩ := outcome
  cases result with
  | error error => cases ran
  | ok deployment =>
      have stored : (demoSwitched demoUnbuilt).db.getDeployment ⟨5⟩ = some demoUnbuilt := by
        decide +kernel
      refine ⟨deployment, final, demoUnbuilt, run, stored, fun currentApp => ?_⟩
      rw [images_resolved_iff]
      have refused : canRollbackToDeployment demoSourceApp demoUnbuilt = false := by decide +kernel
      exact (Bool.eq_false_iff).mp refused

def demoRolledOut : Deployment :=
  { demoUnbuilt with
    status := .running
    imageId := some "containr/shop:manual" }

theorem rollback_carried_out_running :
    ∃ deployment final target,
      Runs Possible (rollbackServiceDeployment demoApp.ownerId demoService.id ⟨5⟩ none).run
        (demoSwitched demoRolledOut) (.ok deployment) final ∧
      (demoSwitched demoRolledOut).db.getDeployment ⟨5⟩ = some target ∧
      ∀ currentApp, ImagesResolved (resolveDeploymentApp currentApp deployment (some target))
        target := by
  have ran : (((rollbackServiceDeployment demoApp.ownerId demoService.id ⟨5⟩ none).run.run system
      calm (demoSwitched demoRolledOut)).1.toOption.isSome) = true := by decide +kernel
  have run := runs_run system calm calm_admitted
    (rollbackServiceDeployment demoApp.ownerId demoService.id ⟨5⟩ none).run
    (demoSwitched demoRolledOut)
  generalize (rollbackServiceDeployment demoApp.ownerId demoService.id ⟨5⟩ none).run.run system calm
    (demoSwitched demoRolledOut) = outcome at ran run
  obtain ⟨result, final⟩ := outcome
  cases result with
  | error error => cases ran
  | ok deployment =>
      obtain ⟨target, stored, resolved⟩ := rollback_carried_out_iff run
      have same : (demoSwitched demoRolledOut).db.getDeployment ⟨5⟩ = some demoRolledOut := by
        decide +kernel
      refine ⟨deployment, final, target, run, stored, fun currentApp => ?_⟩
      apply (resolved currentApp).mpr
      rw [same] at stored
      cases stored
      decide +kernel

end Containr.Api.Services
