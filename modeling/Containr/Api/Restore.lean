import Containr.Api.ContainerNames

/-!
# Missing services

`missing_service_names` of `containr-api/src/server.rs` takes a service for running when
some container's name goes on from the service's prefix with a digit. A sibling's name can
do that as well.
-/

namespace Containr.Api.Restore

open Containr.Worker Containr.Segments Containr.Api.ContainerNames

/-- `starts_with(|c: char| c.is_ascii_digit())`. -/
def startsWithDigit (text : String) : Bool := text.toList.head?.any Char.isDigit

def hasRunningRecord (deployment : Deployment) (service : ContainerService) : Bool :=
  deployment.serviceDeployments.any fun row => row.serviceId = service.id && row.status = .running

def countsFor (app : App) (service : ContainerService) (name : String) : Bool :=
  (Text.stripFront name (servicePrefix app service.name)).any startsWithDigit

def missingServiceNames (app : App) (deployment : Deployment) (containers : List String) :
    List String :=
  (((app.services.filter fun service => !service.isCronJob).filter fun service =>
    hasRunningRecord deployment service).filter fun service =>
      !containers.any (countsFor app service)).map (·.name)

/-- The name of a sibling's container reads like a name of the service's: the sibling's name
goes on with a number, or the service is named after the replica. -/
def ReadsLike (service sibling : ContainerService) (replica : Nat) (id : Uuid) : Prop :=
  (∃ more, sibling.name = service.name ++ "-" ++ more ∧ startsWithDigit more = true) ∨
    (service.name = sibling.name ++ "-" ++ toString replica ∧
      startsWithDigit (shortDeploymentId id) = true)

variable {service : ContainerService} {app : App}

theorem counts_for_rest {name : String} : countsFor app service name = true ↔
      ∃ rest, name = servicePrefix app service.name ++ rest ∧ startsWithDigit rest = true := by
  unfold countsFor
  rw [Option.any_eq_true]
  constructor
  · intro found
    obtain ⟨rest, stripped, digit⟩ := found
    exact ⟨rest, Text.strip_front_some stripped, digit⟩
  · intro found
    obtain ⟨rest, whole, digit⟩ := found
    refine ⟨rest, ?_, digit⟩
    rw [whole, Text.strip_front_append]

theorem starts_with_digit_append {text : String} (more : String) (some : text.toList ≠ []) :
    startsWithDigit (text ++ more) = startsWithDigit text := by
  unfold startsWithDigit
  rw [String.toList_append, List.head?_append_of_ne_nil _ some]

theorem repr_starts_with_digit (value : Nat) : startsWithDigit (toString value) = true := by
  unfold startsWithDigit
  cases digits : (toString value).toList with
  | nil => exact absurd digits (repr_ne_nil value)
  | cons ch rest =>
      have isDigit := repr_digits value ch (by rw [digits]; simp)
      simpa using isDigit

/-- Behind an empty text comes a hyphen. -/
theorem more_starts_with_digit (more rest : String) :
    startsWithDigit (more ++ "-" ++ rest) = startsWithDigit more := by
  by_cases empty : more.toList = []
  · have isEmpty : more = "" := String.toList_eq_nil_iff.mp empty
    rw [isEmpty]
    unfold startsWithDigit
    rw [String.toList_append, String.toList_append]
    rfl
  · rw [String.append_assoc, starts_with_digit_append _ empty]

theorem counts_for_iff (app : App) (service sibling : ContainerService) (replica : Nat)
    (id : Uuid) :
    countsFor app service (containerName app sibling replica id) = true ↔
      sibling.name = service.name ∨ ReadsLike service sibling replica id := by
  rw [counts_for_rest]
  unfold ReadsLike
  constructor
  · intro found
    obtain ⟨rest, whole, digit⟩ := found
    rcases (service_prefix_iff app sibling replica id service.name rest).mp whole with
      ⟨same, -⟩ | ⟨named, last⟩ | ⟨more, named, last⟩
    · exact Or.inl same
    · rw [last] at digit
      exact Or.inr (Or.inr ⟨named, digit⟩)
    · have shape : rest = more ++ "-" ++ (toString replica ++ "-" ++ shortDeploymentId id) := by
        rw [last]
        simp only [String.append_assoc]
      rw [shape, more_starts_with_digit] at digit
      exact Or.inr (Or.inl ⟨more, named, digit⟩)
  · intro cases
    rcases cases with same | ⟨more, named, digit⟩ | ⟨named, digit⟩
    · refine ⟨toString replica ++ "-" ++ shortDeploymentId id, ?_, ?_⟩
      · rw [container_name_eq, same]
      · rw [more_starts_with_digit]
        exact repr_starts_with_digit replica
    · refine ⟨more ++ "-" ++ (toString replica ++ "-" ++ shortDeploymentId id), ?_, ?_⟩
      · apply (service_prefix_iff app sibling replica id service.name _).mpr
        exact Or.inr (Or.inr ⟨more, named, by simp only [String.append_assoc]⟩)
      · rw [more_starts_with_digit]
        exact digit
    · refine ⟨shortDeploymentId id, ?_, digit⟩
      apply (service_prefix_iff app sibling replica id service.name _).mpr
      exact Or.inr (Or.inl ⟨named, rfl⟩)

def WorkerNames (app : App) (containers : List String) : Prop :=
  ∀ name ∈ containers, ∃ service replica id, name = containerName app service replica id

def HasContainer (app : App) (service : ContainerService) (containers : List String) : Prop :=
  ∃ replica id, containerName app service replica id ∈ containers

def Expected (app : App) (deployment : Deployment) (service : ContainerService) : Prop :=
  service ∈ app.services ∧ service.isCronJob = false ∧ hasRunningRecord deployment service = true

def FindsMissing (app : App) (deployment : Deployment) (containers : List String) : Prop :=
  ∀ service, Expected app deployment service →
    (service.name ∈ missingServiceNames app deployment containers ↔
      ¬HasContainer app service containers)

def Unmistaken (app : App) (service : ContainerService) (containers : List String) : Prop :=
  ∀ sibling replica id, containerName app sibling replica id ∈ containers →
    ¬ReadsLike service sibling replica id

variable {containers : List String}

theorem reported_iff {deployment : Deployment} (distinct : (app.services.map (·.name)).Nodup)
    (expected : Expected app deployment service) :
    service.name ∈ missingServiceNames app deployment containers ↔
      containers.any (countsFor app service) = false := by
  obtain ⟨member, longRunning, running⟩ := expected
  unfold missingServiceNames
  rw [List.mem_map]
  constructor
  · intro reported
    obtain ⟨other, found, named⟩ := reported
    simp only [List.mem_filter, Bool.not_eq_true'] at found
    have same : other = service :=
      List.inj_on_of_nodup_map distinct found.1.1.1 member named
    rw [← same]
    exact found.2
  · intro uncounted
    refine ⟨service, ?_, rfl⟩
    simp only [List.mem_filter, Bool.not_eq_true']
    exact ⟨⟨⟨member, longRunning⟩, running⟩, uncounted⟩

theorem counted_iff (workers : WorkerNames app containers) (service : ContainerService) :
    containers.any (countsFor app service) = true ↔
      HasContainer app service containers ∨ ¬Unmistaken app service containers := by
  rw [List.any_eq_true]
  constructor
  · intro counted
    obtain ⟨name, member, counts⟩ := counted
    obtain ⟨sibling, replica, id, isName⟩ := workers name member
    rw [isName] at member counts
    rcases (counts_for_iff app service sibling replica id).mp counts with same | reads
    · refine Or.inl ⟨replica, id, ?_⟩
      unfold containerName at member ⊢
      rw [← same]
      exact member
    · exact Or.inr fun unmistaken => unmistaken sibling replica id member reads
  · intro cases
    rcases cases with ⟨replica, id, member⟩ | mistaken
    · exact ⟨_, member, (counts_for_iff app service service replica id).mpr (Or.inl rfl)⟩
    · unfold Unmistaken at mistaken
      simp only [not_forall, not_not] at mistaken
      obtain ⟨sibling, replica, id, member, reads⟩ := mistaken
      exact ⟨_, member, (counts_for_iff app service sibling replica id).mpr (Or.inr reads)⟩

/-- The report is right exactly when every service without a container is unmistaken. -/
theorem missing_services_found_iff (app : App) (deployment : Deployment) (containers : List String)
    (distinct : (app.services.map (·.name)).Nodup) (workers : WorkerNames app containers) :
    FindsMissing app deployment containers ↔
      ∀ service, Expected app deployment service → ¬HasContainer app service containers →
        Unmistaken app service containers := by
  constructor
  · intro finds service expected none
    have uncounted := (reported_iff distinct expected).mp ((finds service expected).mpr none)
    by_contra mistaken
    have counted := (counted_iff workers service).mpr (Or.inr mistaken)
    rw [uncounted] at counted
    cases counted
  · intro unmistaken service expected
    rw [reported_iff distinct expected]
    constructor
    · intro uncounted has
      have counted := (counted_iff workers service).mpr (Or.inl has)
      rw [uncounted] at counted
      cases counted
    · intro none
      rw [← Bool.not_eq_true]
      intro counted
      rcases (counted_iff workers service).mp counted with has | mistaken
      · exact none has
      · exact mistaken (unmistaken service expected none)

def demoSecond (second : String) : ContainerService := { demoService with id := ⟨7⟩, name := second }

/-- Two services that the deployment runs. -/
def demoPair (second : String) : App :=
  { demoApp with services := [demoService, demoSecond second] }

def demoRecords (app : App) : Deployment :=
  { demoDeployment with
    serviceDeployments := app.services.map fun service =>
      { ServiceDeployment.new ⟨20⟩ 0 service.id demoDeployment.id 0 with status := .running } }

/-- The first replica of the second service is all there is. -/
def demoContainers (second : String) : List String :=
  [containerName (demoPair second) (demoSecond second) 0 demoDeployment.id]

theorem demo_container {second : String} {sibling : ContainerService} {replica : Nat} {id : Uuid}
    (member : containerName (demoPair second) sibling replica id ∈ demoContainers second) :
    sibling.name = second ∧ replica = 0 := by
  have bits : (demoPair second).id.value < 2 ^ 128 := by
    change 1 < 2 ^ 128
    decide
  have fields := (container_name_eq_iff bits bits sibling (demoSecond second) replica 0 id
    demoDeployment.id).mp (List.mem_singleton.mp member)
  exact ⟨fields.2.1, fields.2.2.1⟩

theorem missing_services_found_web :
    WorkerNames (demoPair "web-worker") (demoContainers "web-worker") ∧
    FindsMissing (demoPair "web-worker") (demoRecords (demoPair "web-worker"))
      (demoContainers "web-worker") ∧
    missingServiceNames (demoPair "web-worker") (demoRecords (demoPair "web-worker"))
      (demoContainers "web-worker") = ["web"] := by
  have workers : WorkerNames (demoPair "web-worker") (demoContainers "web-worker") := by
    intro name member
    exact ⟨_, _, _, List.mem_singleton.mp member⟩
  refine ⟨workers, ?_, by decide +kernel⟩
  apply (missing_services_found_iff (demoPair "web-worker") (demoRecords (demoPair "web-worker"))
    (demoContainers "web-worker") (by decide) workers).mpr
  intro service expected none sibling replica id member reads
  have isSecond := demo_container member
  have isOne : service = demoService ∨ service = demoSecond "web-worker" := by
    simpa [demoPair] using expected.1
  rcases isOne with isWeb | isWorker
  · rw [isWeb] at reads
    rcases reads with ⟨more, named, digit⟩ | ⟨named, -⟩
    · have isMore : "worker" = more := by
        apply (String.append_right_inj "web-").mp
        exact isSecond.1.symm.trans named
      rw [← isMore] at digit
      exact absurd digit (by decide)
    · rw [isSecond.1, isSecond.2] at named
      exact absurd named (by decide +kernel)
  · apply none
    rw [isWorker]
    exact ⟨0, demoDeployment.id, List.mem_singleton.mpr rfl⟩

/-- The container of `web-1` is taken for one of `web`. -/
theorem missing_service_overlooked :
    ¬FindsMissing (demoPair "web-1") (demoRecords (demoPair "web-1")) (demoContainers "web-1") := by
  intro finds
  have expected : Expected (demoPair "web-1") (demoRecords (demoPair "web-1")) demoService :=
    ⟨by simp [demoPair], rfl, by decide⟩
  have none : ¬HasContainer (demoPair "web-1") demoService (demoContainers "web-1") := by
    intro has
    obtain ⟨replica, id, member⟩ := has
    have named : "web" = "web-1" := (demo_container member).1
    exact absurd named (by decide)
  have reported := (finds demoService expected).mpr none
  revert reported
  decide +kernel

end Containr.Api.Restore
