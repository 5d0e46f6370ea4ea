import Containr.Cron.Apart
import Containr.Segments

/-!
# The containers of a cron service

`list_cron_job_containers` of `containr-runtime/src/app_service_manager.rs` finds the
containers of a cron service by the front of their names: eight digits of the app's id and
twelve characters of the sanitised service name. Stopping the service and reading its logs
go over this list.
-/

namespace Containr.Cron

open Containr.Effect Containr.Effect.Program Containr.Segments

/-- `truncate_name(&sanitize_name(name), 12)`. -/
def cronLabel (service : ContainerService) : String := truncateName (sanitizeName service.name) 12

def cronContainerPrefix (app : App) (service : ContainerService) : String :=
  "containr-cron-" ++ shortId app.id.toString ++ "-" ++ cronLabel service ++ "-"

def withCronPrefix (app : App) (service : ContainerService) (names : List String) : List String :=
  names.filter fun name => Text.startsWith name (cronContainerPrefix app service)

def listCronJobContainers (app : App) (service : ContainerService) : Fallible (List String) := do
  let containers ← docker .listContainers
  return withCronPrefix app service (List.map Container.name containers)

/-- `stop_app_service` goes over the same containers. -/
theorem cron_container_front_eq (app : App) (service : ContainerService) :
    Api.Services.cronContainerFront app service = cronContainerPrefix app service := rfl

/-- What `launch_cron_job` names a container after. -/
structure CronLaunch where
  app : App
  service : ContainerService
  now : Time

namespace CronLaunch

def name (launch : CronLaunch) : String := cronContainerName launch.app launch.service launch.now

def IsFor (launch : CronLaunch) (app : App) (service : ContainerService) : Prop :=
  launch.app.id = app.id ∧ launch.service.id = service.id

end CronLaunch

def ListsExactly (app : App) (service : ContainerService) (launches : List CronLaunch) : Prop :=
  ∀ launch ∈ launches, launch.name ∈ withCronPrefix app service (launches.map CronLaunch.name) ↔
    launch.IsFor app service

theorem compact_timestamp_digits (seconds : Nat) :
    ∀ ch ∈ (Text.compactTimestamp seconds).toList, ch.isDigit = true := by
  have decimal : ∀ value < 10, (Nat.digitChar value).isDigit = true := by decide
  have two : ∀ value, ∀ ch ∈ (Text.twoDigits value).toList, ch.isDigit = true := by
    intro value ch member
    rw [Text.twoDigits, String.toList_ofList, List.mem_cons, List.mem_singleton] at member
    rcases member with first | second
    · rw [first]
      exact decimal _ (Nat.mod_lt _ (by omega))
    · rw [second]
      exact decimal _ (Nat.mod_lt _ (by omega))
  unfold Text.compactTimestamp
  generalize Text.civilFromDays (seconds / 86400) = date
  intro ch member
  simp only [String.toList_append, List.mem_append] at member
  rcases member with (((((member | member) | member) | member) | member) | member) | member
  all_goals exact two _ ch member

theorem compact_timestamp_plain (seconds : Nat) : '-' ∉ (Text.compactTimestamp seconds).toList :=
  fun member => digit_ne_hyphen (compact_timestamp_digits seconds _ member) rfl

def LabelFront (service otherService : ContainerService) : Prop :=
  cronLabel otherService = cronLabel service ∨
    ∃ more, cronLabel otherService = cronLabel service ++ "-" ++ more

def SharesFront (app other : App) (service otherService : ContainerService) : Prop :=
  shortId other.id.toString = shortId app.id.toString ∧ LabelFront service otherService

theorem cron_prefix_iff (app other : App) (service otherService : ContainerService) (now : Time) :
    Text.startsWith (cronContainerName other otherService now) (cronContainerPrefix app service) =
        true ↔ SharesFront app other service otherService := by
  have fronts : (shortId other.id.toString).toList.length =
      (shortId app.id.toString).toList.length := by
    rw [short_id_length, short_id_length]
  have shape : (∃ rest, cronContainerName other otherService now =
        cronContainerPrefix app service ++ rest) ↔
      ∃ rest : String, (shortId other.id.toString).toList = (shortId app.id.toString).toList ∧
        (cronLabel otherService).toList ++ '-' :: (Text.compactTimestamp now).toList =
          (cronLabel service).toList ++ '-' :: rest.toList := by
    apply exists_congr
    intro rest
    unfold cronContainerName cronContainerPrefix cronLabel
    rw [← String.toList_inj]
    generalize Text.compactTimestamp now = stamp
    simp only [String.toList_append, List.append_assoc, List.append_cancel_left_eq]
    constructor
    · intro same
      obtain ⟨ids, labels⟩ := List.append_inj same fronts
      exact ⟨ids, List.append_cancel_left labels⟩
    · intro same
      rw [same.1]
      exact congrArg _ (congrArg _ same.2)
  rw [Text.starts_with_iff, shape]
  unfold SharesFront LabelFront
  simp only [append_mark_iff (compact_timestamp_plain now), ← String.toList_inj,
    String.toList_append]
  constructor
  · intro found
    obtain ⟨rest, ids, cases⟩ := found
    refine ⟨ids, ?_⟩
    rcases cases with ⟨same, -⟩ | ⟨more, same, -⟩
    · exact Or.inl same
    · exact Or.inr ⟨String.ofList more, by simp [same]⟩
  · intro shares
    obtain ⟨ids, cases⟩ := shares
    rcases cases with same | ⟨more, same⟩
    · exact ⟨Text.compactTimestamp now, ids, Or.inl ⟨same, rfl⟩⟩
    · refine ⟨more ++ "-" ++ Text.compactTimestamp now, ids, Or.inr ⟨more.toList, ?_, ?_⟩⟩
      · rw [same, List.append_assoc]
        rfl
      · rw [String.toList_append, String.toList_append, List.append_assoc]
        rfl

theorem listed_iff {app : App} {service : ContainerService} {launches : List CronLaunch}
    {launch : CronLaunch} (member : launch ∈ launches) :
    launch.name ∈ withCronPrefix app service (launches.map CronLaunch.name) ↔
      SharesFront app launch.app service launch.service := by
  unfold withCronPrefix
  rw [List.mem_filter, ← cron_prefix_iff app launch.app service launch.service launch.now]
  constructor
  · exact And.right
  · exact fun starts => ⟨List.mem_map_of_mem member, starts⟩

/-- The list is exact when containers of other services have other fronts and the service
keeps its label. -/
theorem cron_listing_exact_iff (app : App) (service : ContainerService)
    (launches : List CronLaunch) :
    ListsExactly app service launches ↔ ∀ launch ∈ launches,
      (launch.IsFor app service → LabelFront service launch.service) ∧
      (¬launch.IsFor app service → ¬SharesFront app launch.app service launch.service) := by
  apply forall_congr'
  intro launch
  apply forall_congr'
  intro member
  rw [listed_iff member]
  constructor
  · intro exact
    constructor
    · exact fun own => (exact.mpr own).2
    · exact fun foreign shares => foreign (exact.mp shares)
  · intro apart
    constructor
    · intro shares
      by_contra foreign
      exact apart.2 foreign shares
    · intro own
      exact ⟨by rw [own.1], apart.1 own⟩

/-- `mail` and `mail-daily` are accepted as two cron services of one app; a container of
`mail-daily` is listed for `mail`. -/
theorem cron_listing_takes_sibling : ∃ services accepted, ∃ mail ∈ services, ∃ daily ∈ services,
    Runs Possible (Api.buildServices Api.Services.demoCrates ⟨1⟩ []
      (demoCronRequests ["mail", "mail-daily"]) false).run World.empty (.ok services) accepted ∧
    mail.isCronJob = true ∧ daily.isCronJob = true ∧
    ¬ListsExactly Worker.demoApp mail [⟨Worker.demoApp, daily, 0⟩] := by
  have ran : ((demoCronServices ["mail", "mail-daily"]).1.toOption.bind fun services =>
      services[0]?.bind fun mail => services[1]?.map fun daily =>
        decide (mail.isCronJob = true ∧ daily.isCronJob = true ∧ daily.id ≠ mail.id ∧
          Text.startsWith (cronContainerName Worker.demoApp daily 0)
            (cronContainerPrefix Worker.demoApp mail) = true)) = some true := by decide +kernel
  obtain ⟨services, isServices, rest⟩ := Option.bind_eq_some_iff.mp ran
  obtain ⟨mail, isMail, rest⟩ := Option.bind_eq_some_iff.mp rest
  obtain ⟨daily, isDaily, shown⟩ := Option.map_eq_some_iff.mp rest
  obtain ⟨mailCron, dailyCron, different, starts⟩ := of_decide_eq_true shown
  refine ⟨services, _, mail, List.mem_of_getElem? isMail, daily, List.mem_of_getElem? isDaily,
    demo_cron_services_run (ok_of_to_option isServices), mailCron, dailyCron, ?_⟩
  intro exact
  have listed : cronContainerName Worker.demoApp daily 0 ∈
      withCronPrefix Worker.demoApp mail [cronContainerName Worker.demoApp daily 0] :=
    List.mem_filter.mpr ⟨List.mem_singleton.mpr rfl, starts⟩
  have own := (exact ⟨Worker.demoApp, daily, 0⟩ (List.mem_singleton.mpr rfl)).mp listed
  exact different own.2

end Containr.Cron
