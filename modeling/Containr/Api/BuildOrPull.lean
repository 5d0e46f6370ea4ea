import Containr.Api.Replicas
import Containr.Api.Rollback
import Containr.Api.WellFormed

/-!
# Build or pull

Whether a service needs a source build is asked in many places. Queueing, pulling, starting
and the scheduler trim the configured image first; the worker, its rollbacks and the rollback
question take the stored text as it is.
-/

namespace Containr.Api.BuildOrPull

open Containr.Effect Containr.Effect.Program Containr.Worker Containr.Api.Services

/-- No earlier build of the service is on record. -/
def Unbuilt (deployment : Deployment) (service : ContainerService) : Prop :=
  deployment.imageId = none ∧
    ∀ row ∈ deployment.serviceDeployments, row.serviceId = service.id → row.imageId = none

def withoutSource (app : App) (deployment : Deployment) (commitSha : String) (built : Worker.Built)
    (service : ContainerService) : Fallible Worker.Built :=
  buildServiceImage app deployment none commitSha none built service

def TakesConfigured (built : Worker.Built) (service : ContainerService)
    (program : Fallible Worker.Built) : Prop :=
  program.run = .pure (.ok { built with images := built.images.insert service.id service.image })

structure ServiceAgrees (service : ContainerService) : Prop where
  /-- The worker wants a source tree. -/
  worker : ∀ app deployment commitSha built,
    (∃ error, (withoutSource app deployment commitSha built service).run = .pure (.error error)) ↔
      service.requiresSourceCheckout = true
  prebuilt : ∀ app deployment commitSha built,
    TakesConfigured built service (withoutSource app deployment commitSha built service) ↔
      service.requiresSourceCheckout = false
  /-- A sibling of the one service that is built from an upload. -/
  sibling : ∀ app deployment repoPath commitSha built target, target ≠ service.id →
    (TakesConfigured built service
      (buildServiceImage app deployment repoPath commitSha (some target) built service) ↔
        service.requiresSourceCheckout = false)
  pull : shouldPullServiceImage service service.image = !service.requiresSourceCheckout
  start : ∀ deployment replica, Unbuilt deployment service →
    (resolveServiceImage deployment service replica = none ↔ service.requiresSourceCheckout = true)
  listed : ∀ deployment, Unbuilt deployment service →
    deploymentHasServiceImage deployment service = !service.requiresSourceCheckout
  cron : ∀ deployment, Unbuilt deployment service →
    ((∃ error, Cron.resolveServiceImage service deployment = .error error) ↔
      service.requiresSourceCheckout = true)
  rollback : ∀ source, Unbuilt source service →
    ((∃ error, rollbackServiceImage source service = .error error) ↔
      service.requiresSourceCheckout = true)

/-- The places agree about all services, no deployment queued without a source meets a service
that is to be built, and what counts as prebuilt has an image to run. -/
structure BuildOrPullAgrees (app : App) : Prop where
  services : ∀ service ∈ app.services, ServiceAgrees service
  question : ∀ target, canRollbackToDeployment app target =
    (target.imageId.isSome || app.services.all fun service =>
      target.serviceDeployments.any (fun row => row.serviceId = service.id && row.imageId.isSome) ||
        !service.requiresSourceCheckout)
  sourceless : app.requiresSourceCheckout = false → ∀ deployment commitSha, ∃ images,
    (buildServiceImages app deployment none commitSha none).run = .pure (.ok images) ∧
      ∀ service ∈ app.services, ∃ image, images.get service.id = some image
  usable : ∀ service ∈ app.services, ∀ deployment commitSha built,
    TakesConfigured built service (withoutSource app deployment commitSha built service) →
      Text.blank service.image = false

variable {app : App} {deployment : Deployment} {commitSha : String} {built : Worker.Built}
  {service : ContainerService}

theorem without_source_configured (filled : service.image.isEmpty = false) :
    TakesConfigured built service (withoutSource app deployment commitSha built service) := by
  unfold TakesConfigured withoutSource buildServiceImage
  simp [filled]

theorem without_source_refused (empty : service.image.isEmpty = true) :
    (withoutSource app deployment commitSha built service).run = .pure (.error ("service " ++
      service.name ++ " requires source checkout but no source was provided")) := by
  unfold withoutSource buildServiceImage buildFromSource buildConfig
  simp [empty]

theorem without_source_error_iff :
    (∃ error, (withoutSource app deployment commitSha built service).run = .pure (.error error)) ↔
      service.image.isEmpty = true := by
  constructor
  · intro refused
    obtain ⟨error, isError⟩ := refused
    by_contra filled
    have taken := @without_source_configured app deployment commitSha built service
      (Bool.not_eq_true _ ▸ filled)
    unfold TakesConfigured at taken
    rw [taken] at isError
    cases isError
  · exact fun empty => ⟨_, without_source_refused empty⟩

theorem without_source_configured_iff :
    TakesConfigured built service (withoutSource app deployment commitSha built service) ↔
      service.image.isEmpty = false := by
  constructor
  · intro taken
    rw [← Bool.not_eq_true]
    intro empty
    unfold TakesConfigured at taken
    rw [without_source_refused empty] at taken
    cases taken
  · exact without_source_configured

/-- A sibling of the target without a configured image asks the store for an earlier one. -/
theorem sibling_configured_iff (repoPath : Option String) {target : Uuid}
    (other : target ≠ service.id) : TakesConfigured built service
      (buildServiceImage app deployment repoPath commitSha (some target) built service) ↔
        service.image.isEmpty = false := by
  unfold TakesConfigured buildServiceImage
  cases empty : service.image.isEmpty with
  | false => simp [other]
  | true =>
      simp only [Option.isSome_some, Option.some.injEq, other, decide_false, Bool.not_false,
        Bool.and_self, if_true, Bool.true_eq_false, iff_false]
      exact nofun

section Unbuilt

variable {source : Deployment}

theorem no_record (unbuilt : Unbuilt source service) :
    (source.serviceDeployments.find? fun row =>
      row.serviceId = service.id && row.imageId.isSome) = none := by
  apply List.find?_eq_none.mpr
  intro row member found
  obtain ⟨own, image⟩ := (Bool.and_eq_true _ _).mp found
  rw [unbuilt.2 row member (of_decide_eq_true own)] at image
  cases image

theorem start_image_iff (unbuilt : Unbuilt source service) (replica : Nat) :
    resolveServiceImage source service replica = none ↔
      service.requiresSourceCheckout = true := by
  have own : (source.serviceDeployments.find? fun row =>
      row.serviceId = service.id && row.replicaIndex = replica && row.imageId.isSome) = none := by
    apply List.find?_eq_none.mpr
    intro row member found
    obtain ⟨both, image⟩ := (Bool.and_eq_true _ _).mp found
    obtain ⟨isOwn, -⟩ := (Bool.and_eq_true _ _).mp both
    rw [unbuilt.2 row member (of_decide_eq_true isOwn)] at image
    cases image
  have sibling : ((source.serviceDeployments.find? fun row => row.serviceId = service.id).bind
      (·.imageId)) = none := by
    cases found : source.serviceDeployments.find? fun row => row.serviceId = service.id with
    | none => rfl
    | some row =>
        have isOwn := List.find?_some found
        exact unbuilt.2 row (List.mem_of_find?_eq_some found) (by simpa using isOwn)
  unfold resolveServiceImage ContainerService.requiresSourceCheckout
  simp only [own, sibling, unbuilt.1, Option.bind_none, Option.orElse_none]
  cases Text.blank service.image with
  | true => simp
  | false => simp

theorem listed_image_eq (unbuilt : Unbuilt source service) :
    deploymentHasServiceImage source service = !service.requiresSourceCheckout := by
  have none : (source.serviceDeployments.any fun row =>
      row.serviceId = service.id && row.imageId.isSome) = false := by
    rw [List.any_eq_false]
    exact List.find?_eq_none.mp (no_record unbuilt)
  unfold deploymentHasServiceImage ContainerService.requiresSourceCheckout
  rw [none, unbuilt.1]
  simp

theorem cron_image_iff (unbuilt : Unbuilt source service) :
    (∃ error, Cron.resolveServiceImage service source = .error error) ↔
      service.requiresSourceCheckout = true := by
  unfold Cron.resolveServiceImage ContainerService.requiresSourceCheckout
  rw [no_record unbuilt, unbuilt.1]
  cases Text.blank service.image with
  | true => simp
  | false => simp

theorem rollback_image_iff (unbuilt : Unbuilt source service) :
    (∃ error, rollbackServiceImage source service = .error error) ↔
      service.image.isEmpty = true := by
  unfold rollbackServiceImage
  rw [no_record unbuilt, unbuilt.1]
  cases service.image.isEmpty with
  | true => simp
  | false => simp

end Unbuilt

def EmptyIfBlank (service : ContainerService) : Prop :=
  Text.blank service.image = true → service.image = ""

theorem empty_eq_blank (empty : EmptyIfBlank service) :
    service.image.isEmpty = service.requiresSourceCheckout := by
  unfold ContainerService.requiresSourceCheckout
  cases blank : Text.blank service.image with
  | true =>
      rw [empty blank]
      rfl
  | false =>
      rw [← Bool.not_eq_true, String.isEmpty_iff]
      intro isEmpty
      rw [isEmpty] at blank
      exact absurd blank (by decide)

theorem trim_empty_iff (text : String) : (Text.trim text).isEmpty = Text.blank text := by
  unfold Text.trim Text.blank
  cases Text.trimChars text.toList with
  | nil => rfl
  | cons ch rest =>
      rw [List.isEmpty_cons, ← Bool.not_eq_true, String.isEmpty_iff]
      intro none
      have lists := congrArg String.toList none
      rw [String.toList_ofList] at lists
      cases lists

theorem pull_eq (service : ContainerService) :
    shouldPullServiceImage service service.image = !service.requiresSourceCheckout := by
  unfold shouldPullServiceImage ContainerService.requiresSourceCheckout
  simp [trim_empty_iff]

theorem service_agrees_iff (service : ContainerService) :
    ServiceAgrees service ↔ EmptyIfBlank service := by
  constructor
  · intro agrees blank
    by_contra filled
    have taken := (agrees.prebuilt demoApp demoDeployment "" ⟨[], []⟩).mp
      (without_source_configured (by
        rw [← Bool.not_eq_true, String.isEmpty_iff]
        exact filled))
    unfold ContainerService.requiresSourceCheckout at taken
    rw [blank] at taken
    cases taken
  · intro empty
    have same := empty_eq_blank empty
    constructor
    · intro app deployment commitSha built
      rw [without_source_error_iff, same]
    · intro app deployment commitSha built
      rw [without_source_configured_iff, same]
    · intro app deployment repoPath commitSha built target other
      rw [sibling_configured_iff repoPath other, same]
    · exact pull_eq service
    · exact fun deployment replica unbuilt => start_image_iff unbuilt replica
    · exact fun deployment unbuilt => listed_image_eq unbuilt
    · exact fun deployment unbuilt => cron_image_iff unbuilt
    · intro source unbuilt
      rw [rollback_image_iff unbuilt, same]

theorem without_source_images (services : List ContainerService)
    (filled : ∀ service ∈ services, service.image.isEmpty = false) (built : Worker.Built) :
    ∃ last : Worker.Built,
      (services.foldlM (buildServiceImage app deployment none commitSha none) built).run =
        .pure (.ok last) ∧
      (∀ service ∈ services, ∃ image, last.images.get service.id = some image) ∧
      ∀ id, (∃ image, built.images.get id = some image) → ∃ image, last.images.get id = some image := by
  induction services generalizing built with
  | nil => exact ⟨built, rfl, fun _ member => absurd member List.not_mem_nil, fun _ known => known⟩
  | cons service services ih =>
      have taken := @without_source_configured app deployment commitSha built service
        (filled service List.mem_cons_self)
      unfold TakesConfigured withoutSource at taken
      obtain ⟨last, chosen, later, kept⟩ := ih
        (fun other member => filled other (List.mem_cons_of_mem _ member))
        { built with images := built.images.insert service.id service.image }
      refine ⟨last, ?_, ?_, ?_⟩
      · rw [List.foldlM_cons, ExceptT.run_bind, taken]
        exact chosen
      · intro other member
        rcases List.mem_cons.mp member with isFirst | inRest
        · apply kept
          rw [isFirst, images_get_insert, if_pos rfl]
          exact ⟨service.image, rfl⟩
        · exact later other inRest
      · intro id known
        apply kept
        rw [images_get_insert]
        split_ifs with same
        · exact ⟨service.image, rfl⟩
        · exact known

/-- All places agree about an app when no image is blank without being empty. -/
theorem build_or_pull_agrees_iff (app : App) :
    BuildOrPullAgrees app ↔ ∀ service ∈ app.services, EmptyIfBlank service := by
  constructor
  · exact fun agrees service member => (service_agrees_iff service).mp (agrees.services service member)
  · intro empty
    constructor
    · exact fun service member => (service_agrees_iff service).mpr (empty service member)
    · intro target
      unfold canRollbackToDeployment
      apply congrArg (target.imageId.isSome || ·)
      apply Bool.eq_iff_iff.mpr
      rw [List.all_eq_true, List.all_eq_true]
      apply forall_congr'
      intro service
      apply forall_congr'
      intro member
      rw [empty_eq_blank (empty service member)]
    · intro sourceless deployment commitSha
      have filled : ∀ service ∈ app.services, service.image.isEmpty = false := by
        intro service member
        rw [empty_eq_blank (empty service member)]
        unfold App.requiresSourceCheckout at sourceless
        have none := List.any_eq_false.mp sourceless service member
        simpa using none
      obtain ⟨last, chosen, all, -⟩ := @without_source_images app deployment commitSha app.services
        filled ⟨[], []⟩
      refine ⟨last.images, ?_, all⟩
      unfold buildServiceImages
      simp only [Option.all_none, ensure, if_true, LawfulMonad.pure_bind]
      rw [ExceptT.run_bind, chosen]
      rfl
    · intro service member deployment commitSha built taken
      have filled := without_source_configured_iff.mp taken
      rw [empty_eq_blank (empty service member)] at filled
      exact filled

/-- The image `" "` is accepted; the worker takes it for an image. -/
theorem blank_image_taken : ∃ calls services, Reachable demoCrates ⟨1⟩ calls services ∧
    services.map (·.image) = [" "] ∧ ¬BuildOrPullAgrees { demoApp with services := services } := by
  have ran : (demoBuilt [] { demoServiceRequest "web" with image := some " " }).map (fun services =>
      services.map (·.image)) = some [" "] := by decide +kernel
  obtain ⟨services, built, images⟩ := Option.map_eq_some_iff.mp ran
  refine ⟨_, services, .build .none .nil (demo_built_yields built), images, ?_⟩
  intro agrees
  cases services with
  | nil => cases images
  | cons service rest =>
      have isBlank : service.image = " " := (List.cons.inj images).1
      have taken := @without_source_configured demoApp demoDeployment "" ⟨[], []⟩ service
        (by rw [isBlank]; rfl)
      have usable := agrees.usable service List.mem_cons_self demoDeployment "" ⟨[], []⟩ taken
      rw [isBlank] at usable
      exact absurd usable (by decide)

end Containr.Api.BuildOrPull
