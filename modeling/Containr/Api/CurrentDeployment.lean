import Containr.Api.InProgress
import Containr.Proxy.Refresh
import Containr.ServiceInventory

/-!
# The current deployment of a service

The dashboard judges a service by the newest running deployment of its app, and by the
newest one when none runs. Start, stop and logs want a deployment that has an image for
the service; the route refresh and the scheduler want one that runs.
-/

namespace Containr.Api.Services

open Containr.Effect Containr.Effect.Program Containr.Worker

section Searches

variable {Value : Type} {values : List Value} {wanted further : Value → Bool} {found : Value}

/-- The first match of a search is the first match of a stricter one that it passes. -/
theorem find_stricter (first : values.find? wanted = some found) (passes : further found = true) :
    (values.find? fun value => wanted value && further value) = some found := by
  induction values with
  | nil => cases first
  | cons value rest ih =>
      by_cases matched : wanted value = true
      · rw [List.find?_cons_of_pos matched] at first
        cases first
        rw [List.find?_cons_of_pos]
        simp [matched, passes]
      · rw [List.find?_cons_of_neg matched] at first
        rw [List.find?_cons_of_neg]
        · exact ih first
        · simp [matched]

theorem find_stricter_none (none : values.find? wanted = none) :
    (values.find? fun value => wanted value && further value) = Option.none := by
  rw [List.find?_eq_none] at none ⊢
  intro value member
  have unwanted := none value member
  simp [unwanted]

end Searches

section Newest

variable {deployments : List Deployment} {service : ContainerService} {current : Deployment}

theorem pick_has_image (picked : pickDeployment deployments service = some current) :
    deploymentHasServiceImage current service = true := by
  unfold pickDeployment at picked
  dsimp only at picked
  generalize deployments.insertionSort (fun left right : Deployment =>
    right.createdAt ≤ left.createdAt) = sorted at picked
  cases first : sorted.find? fun deployment =>
      deployment.status = .running && deploymentHasServiceImage deployment service with
  | some running =>
      rw [first] at picked
      cases picked
      have passed := List.find?_some first
      simp only [Bool.and_eq_true] at passed
      exact passed.2
  | none =>
      rw [first] at picked
      have second : (sorted.find? fun deployment =>
        deploymentHasServiceImage deployment service) = some current := picked
      have passed := List.find?_some second
      exact passed

/-- Start, stop and logs go by the deployment of the dashboard exactly when it has an image
for the service. -/
theorem pick_summarized_iff (reported : summarizedDeployment deployments = some current) :
    pickDeployment deployments service = some current ↔
      deploymentHasServiceImage current service = true := by
  constructor
  · exact pick_has_image
  · intro hasImage
    unfold summarizedDeployment at reported
    unfold pickDeployment
    dsimp only at reported ⊢
    generalize deployments.insertionSort (fun left right : Deployment =>
    right.createdAt ≤ left.createdAt) = sorted at reported ⊢
    cases first : sorted.find? fun deployment => deployment.status = .running with
    | some running =>
        rw [first] at reported
        cases reported
        rw [find_stricter first hasImage]
        rfl
    | none =>
        rw [first] at reported
        rw [find_stricter_none first]
        cases sorted with
        | nil => cases reported
        | cons newest rest =>
            cases reported
            have newestPicked : ((current :: rest).find? fun deployment =>
                deploymentHasServiceImage deployment service) = some current := by
              rw [List.find?_cons_of_pos]
              exact hasImage
            exact newestPicked

/-- In a list that is newest first already, the first running deployment is the dashboard's. -/
theorem running_summarized (newestFirst : deployments.Pairwise fun left right =>
      right.createdAt ≤ left.createdAt)
    (reported : summarizedDeployment deployments = some current)
    (running : ∃ deployment ∈ deployments, deployment.status = .running) :
    (deployments.find? fun deployment => deployment.status = .running) = some current := by
  unfold summarizedDeployment at reported
  rw [List.Pairwise.insertionSort_eq newestFirst] at reported
  dsimp only at reported
  cases first : deployments.find? fun deployment => deployment.status = .running with
  | some found =>
      rw [first] at reported
      exact reported
  | none =>
      obtain ⟨deployment, member, runs⟩ := running
      have idle := List.find?_eq_none.mp first deployment member
      simp [runs] at idle

theorem summarized_mem (reported : summarizedDeployment deployments = some current) :
    current ∈ deployments := by
  unfold summarizedDeployment at reported
  dsimp only at reported
  have sorted : current ∈ deployments.insertionSort fun left right =>
      right.createdAt ≤ left.createdAt := by
    generalize deployments.insertionSort (fun left right : Deployment =>
    right.createdAt ≤ left.createdAt) = sorted at reported
    cases first : sorted.find? fun deployment => deployment.status = .running with
    | some running =>
        rw [first] at reported
        cases reported
        exact List.mem_of_find?_eq_some first
    | none =>
        rw [first] at reported
        exact List.mem_of_head? reported
  exact (List.mem_insertionSort _).mp sorted

end Newest

theorem stored_newest_first (db : Database) (appId : Uuid) :
    (storedDeployments db appId).Pairwise fun left right => right.createdAt ≤ left.createdAt := by
  have sorted : (db.deploymentRowsByApp appId).Pairwise fun left right =>
      right.createdAt ≤ left.createdAt := by
    have total : Std.Total fun left right : Deployment => right.createdAt ≤ left.createdAt :=
      ⟨fun left right => Nat.le_total right.createdAt left.createdAt⟩
    have transitive : IsTrans Deployment fun left right => right.createdAt ≤ left.createdAt :=
      ⟨fun _ _ _ first second => Nat.le_trans second first⟩
    exact List.pairwise_insertionSort _ _
  unfold storedDeployments
  rw [List.pairwise_map]
  exact sorted

theorem resolve_running_exact {db : Database} (appId : Uuid) :
    (Cron.resolveRunningDeployment appId).run.Under (Exact db) Op.Reading
      (OnOk fun found => found =
        (storedDeployments db appId).find? fun deployment => deployment.status = .running) := by
  apply under_chain (list_deployments_exact appId)
  intro deployments read
  apply under_return
  rw [read]

/-- With nobody writing in between, start, stop and logs act on the deployment that the
dashboard reports exactly when it has an image for the service; while a deployment runs,
the route refresh and the scheduler use it in any case. -/
theorem current_deployment_iff (app : App) (service : ContainerService) (world : World) (id : Uuid)
    (reported : (summarizeAppServiceRuntime service
      (storedDeployments world.db app.id)).deploymentId = some id) :
    ∃ current ∈ storedDeployments world.db app.id, current.id = id ∧
      (∀ found final, Runs Possible (resolveAppServiceDeployment app service).run world
        (.ok found) final →
          (found = some current ↔ deploymentHasServiceImage current service = true)) ∧
      ((∃ deployment ∈ storedDeployments world.db app.id, deployment.status = .running) →
        Proxy.latestRunning (.ok (storedDeployments world.db app.id)) = some current ∧
          ∀ found final, Runs Possible (Cron.resolveRunningDeployment app.id).run world
            (.ok found) final → found = some current) := by
  rw [summary_deployment_id] at reported
  obtain ⟨current, isCurrent, sameId⟩ := Option.map_eq_some_iff.mp reported
  refine ⟨current, summarized_mem isCurrent, sameId, ?_, ?_⟩
  · intro found final run
    have exact := (exact_always (resolve_deployment_exact app service) rfl).runs run
    have isPick : found = pickDeployment (storedDeployments world.db app.id) service := exact.1
    rw [isPick]
    exact pick_summarized_iff isCurrent
  · intro running
    have newest := running_summarized (stored_newest_first world.db app.id) isCurrent running
    constructor
    · exact newest
    · intro found final run
      have exact := (exact_always (resolve_running_exact app.id) rfl).runs run
      exact exact.1.trans newest

def builtService : ContainerService := { demoService with image := "" }

def failedBuildWorld : World :=
  { demoWorld with db := { demoWorld.db with
      services := [builtService]
      deployments := [
        { demoDeployment with status := .stopped, imageId := some "shop:1", createdAt := 1 },
        { demoDeployment with id := ⟨11⟩, status := .failed, createdAt := 2 }] } }

theorem current_deployment_iff_built :
    (summarizeAppServiceRuntime builtService
      (storedDeployments failedBuildWorld.db demoApp.id)).deploymentId = some ⟨11⟩ ∧
    ∃ current ∈ storedDeployments failedBuildWorld.db demoApp.id, current.id = ⟨11⟩ ∧
      (∀ found final, Runs Possible (resolveAppServiceDeployment demoApp builtService).run
        failedBuildWorld (.ok found) final →
          (found = some current ↔ deploymentHasServiceImage current builtService = true)) := by
  have reported : (summarizeAppServiceRuntime builtService
      (storedDeployments failedBuildWorld.db demoApp.id)).deploymentId = some ⟨11⟩ := by decide
  obtain ⟨current, member, sameId, requests, -⟩ :=
    current_deployment_iff demoApp builtService failedBuildWorld ⟨11⟩ reported
  exact ⟨reported, current, member, sameId, requests⟩

/-- The dashboard reports the failed deployment; start, stop and logs act on the stopped one. -/
theorem failed_build_passed_over :
    (summarizeAppServiceRuntime builtService
      (storedDeployments failedBuildWorld.db demoApp.id)).deploymentId = some ⟨11⟩ ∧
    ∃ picked final, Runs Possible (resolveAppServiceDeployment demoApp builtService).run
      failedBuildWorld (.ok (some picked)) final ∧ picked.id = ⟨10⟩ := by
  have ran : (fun outcome : Except ApiError (Option Deployment) × World =>
      outcome.1.toOption.map (Option.map (·.id)))
        ((resolveAppServiceDeployment demoApp builtService).run.run system calm
          failedBuildWorld) = some (some ⟨10⟩) := by decide +kernel
  have run := runs_run system calm calm_admitted
    (resolveAppServiceDeployment demoApp builtService).run failedBuildWorld
  generalize (resolveAppServiceDeployment demoApp builtService).run.run system calm
    failedBuildWorld = outcome at ran run
  obtain ⟨result, final⟩ := outcome
  refine ⟨by decide, ?_⟩
  cases result with
  | error error => cases ran
  | ok found =>
      cases found with
      | none => cases ran
      | some picked =>
          have isOlder : some (some picked.id) = some (some (⟨10⟩ : Uuid)) := ran
          exact ⟨picked, final, run, Option.some.inj (Option.some.inj isOlder)⟩

end Containr.Api.Services
