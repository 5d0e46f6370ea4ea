import Containr.Api.NamedSettings
import Containr.Api.PublicNames

/-!
# What an update of a service leaves of the services

`build_services` builds every service of the app again. The service the update is of has
what its request does not name as before, and its siblings are as before.
-/

namespace Containr.Api

open Containr.Effect Containr.Effect.Program Containr.Worker Containr.Pushes
  Containr.Api.Services

inductive ServiceSetting where
  /-- The service is there. -/
  | present
  | registryAuth | envVars | buildContext | dockerfilePath | buildTarget | buildArgs | command
  | entrypoint | workingDir | schedule | notes | basicAuth | loginGate | portMappings
  | additionalPorts | domains | httpOnlyDomains | files
  /-- Everything else but the time of the update. -/
  | rest

namespace ServiceSetting

abbrev Value : ServiceSetting → Type
  | .present => Unit
  | .registryAuth => Option ServiceRegistryAuth
  | .envVars => List EnvVar
  | .buildContext | .dockerfilePath | .buildTarget | .workingDir | .schedule | .notes =>
      Option String
  | .buildArgs => List BuildArg
  | .command | .entrypoint => Option (List String)
  | .basicAuth => Option BasicAuth
  | .loginGate => Option LoginGate
  | .portMappings => List PortMapping
  | .additionalPorts => List Nat
  | .domains | .httpOnlyDomains => List String
  | .files => List ConfigFile
  | .rest => ContainerService

def read (service : ContainerService) : (setting : ServiceSetting) → setting.Value
  | .present => ()
  | .registryAuth => service.registryAuth
  | .envVars => service.envVars
  | .buildContext => service.buildContext
  | .dockerfilePath => service.dockerfilePath
  | .buildTarget => service.buildTarget
  | .buildArgs => service.buildArgs
  | .command => service.command
  | .entrypoint => service.entrypoint
  | .workingDir => service.workingDir
  | .schedule => service.schedule
  | .notes => service.notes
  | .basicAuth => service.basicAuth
  | .loginGate => service.loginGate
  | .portMappings => service.portMappings
  | .additionalPorts => service.additionalPorts
  | .domains => service.customDomains
  | .httpOnlyDomains => service.httpOnlyDomains
  | .files => service.files
  | .rest => { service with
      registryAuth := none
      envVars := []
      buildContext := none
      dockerfilePath := none
      buildTarget := none
      buildArgs := []
      command := none
      entrypoint := none
      workingDir := none
      schedule := none
      notes := none
      basicAuth := none
      loginGate := none
      portMappings := []
      additionalPorts := []
      domains := []
      httpOnlyDomains := []
      files := []
      updatedAt := 0 }

end ServiceSetting

/-- Only a web service has domains, and the request may ask for another kind. -/
def ServiceRequest.NamesDomains (crates : Crates) (found : ContainerService)
    (request : ServiceRequest) : Prop :=
  requestedServiceDomains crates request ≠ none ∨
    resolveServiceType request found.serviceType ≠ .ok .webService

/-- What a request says about a stored service. The fields of the rest have no absent value:
what is missing in the request is set to its default. -/
def ServiceRequest.Names (crates : Crates) (found : ContainerService) (request : ServiceRequest) :
    ServiceSetting → Prop
  | .present => False
  | .registryAuth => request.registryAuth.isSome
  | .envVars => request.envVars.isSome
  | .buildContext => request.buildContext.isSome
  | .dockerfilePath => request.dockerfilePath.isSome
  | .buildTarget => request.buildTarget.isSome
  | .buildArgs => request.buildArgs.isSome
  | .command => request.command.isSome
  | .entrypoint => request.entrypoint.isSome
  | .workingDir => request.workingDir.isSome
  | .schedule => request.schedule.isSome
  | .notes => request.notes.isSome
  | .basicAuth => request.basicAuth.isSome
  | .loginGate => request.loginGate.isSome
  | .portMappings => request.portMappings.isSome
  | .additionalPorts => request.additionalPorts.isSome
  | .domains => request.NamesDomains crates found
  -- the rule drops what is not among the domains, so it may change what it never stored
  | .httpOnlyDomains => request.httpOnlyDomains.isSome ∨ request.NamesDomains crates found ∨
      ¬∀ domain ∈ found.domains, normalizeDomain crates domain = some domain
  | .files => request.files.isSome
  | .rest => True

section Target

variable {crates : Crates} {appId : Uuid} {isAdmin : Bool} {name : String}
  {request : ServiceRequest} {origin service : ContainerService} {serviceType : ServiceType}
  {schedule : Option String}

theorem custom_domains_idem (service other : ContainerService)
    (same : other.domains = service.customDomains) :
    other.customDomains = service.customDomains := by
  have filled : ∀ domain ∈ service.customDomains, Text.blank domain = false := by
    intro domain member
    exact (mem_custom_domains.mp member).2
  have round : other.customDomains = other.domains.foldl (fun domains domain =>
      if !Text.blank domain && !domains.contains domain then domains ++ [domain] else domains) [] :=
    rfl
  rw [round, same, foldl_all _ (by simpa using custom_domains_nodup service), List.nil_append]
  intro outs domain member fresh
  have unknown : outs.contains domain = false := by simpa using fresh
  rw [filled domain member, unknown]
  rfl

theorem config_files_requested {mounts : List ServiceMount} {requests : List ConfigFileRequest}
    {result : List ConfigFile} (accepted : buildConfigFiles crates requests mounts = .ok result) :
    result = requests.map fun file => ⟨Text.trim file.path, file.content⟩ := by
  have pushes : ∀ (requests : List ConfigFileRequest) (parsed result : List ConfigFile),
      requests.foldlM (pushConfigFile crates mounts) parsed = .ok result →
        result = parsed ++ requests.map fun file => ⟨Text.trim file.path, file.content⟩ := by
    intro requests
    induction requests with
    | nil =>
        intro parsed result done
        cases done
        simp
    | cons file requests ih =>
        intro parsed result done
        rw [List.foldlM_cons, except_bind_iff] at done
        obtain ⟨next, pushed, rest⟩ := done
        obtain ⟨-, -, -, -, same⟩ := push_config_file_iff.mp pushed
        rw [ih next result rest, same]
        simp
  unfold buildConfigFiles at accepted
  split_ifs at accepted with many
  exact pushes requests [] result accepted

theorem mapped_back {Out Entry : Type} {entry : Out → Entry} {back : Entry → Out}
    (inverse : ∀ out, back (entry out) = out) (outs : List Out) :
    (outs.map entry).map back = outs := by
  rw [List.map_map]
  exact (List.map_congr_left fun out _ => inverse out).trans (List.map_id outs)

/-- What the request of the service does not name is as the record has it. -/
theorem configured_leaves
    (configured : Configured crates appId isAdmin name request origin serviceType schedule service)
    (resolved : resolveServiceType request origin.serviceType = .ok serviceType)
    (timed : normalizeCronSchedule crates request.schedule origin.schedule = .ok schedule)
    {stored : ContainerService} (kept : Stored crates appId stored)
    (same : ∃ name, origin = { stored with name := name }) (setting : ServiceSetting)
    (unnamed : ¬request.Names crates stored setting) :
    setting.read service = setting.read stored := by
  obtain ⟨newName, rfl⟩ := same
  have web : ¬request.NamesDomains crates stored → serviceType = .webService ∧
      service.domains = stored.customDomains := by
    intro silent
    have isWeb : serviceType = .webService := by
      by_contra other
      apply silent
      right
      rw [resolved]
      exact fun isOk => other (Except.ok.inj isOk)
    have nothing : requestedServiceDomains crates request = none := by
      by_contra named
      exact silent (Or.inl named)
    refine ⟨isWeb, ?_⟩
    rw [configured.domains, nothing, isWeb]
    rfl
  cases setting with
  | present => rfl
  | registryAuth =>
      have yields := configured.registryAuth
      rw [Option.not_isSome_iff_eq_none.mp unnamed] at yields
      exact Except.ok.inj (yields_run_pure.mp yields)
  | envVars =>
      have built := configured.envVars
      rw [Option.not_isSome_iff_eq_none.mp unnamed] at built
      exact (Except.ok.inj built).symm.trans (mapped_back (fun _ => rfl) _)
  | buildContext =>
      have built := configured.buildContext
      rw [Option.not_isSome_iff_eq_none.mp unnamed] at built
      exact (Except.ok.inj built).symm
  | dockerfilePath =>
      have built := configured.dockerfilePath
      rw [Option.not_isSome_iff_eq_none.mp unnamed] at built
      exact (Except.ok.inj built).symm
  | buildTarget =>
      have built := configured.buildTarget
      rw [Option.not_isSome_iff_eq_none.mp unnamed] at built
      exact built
  | buildArgs =>
      have built := configured.buildArgs
      rw [Option.not_isSome_iff_eq_none.mp unnamed] at built
      exact (Except.ok.inj built).symm.trans (mapped_back (fun _ => rfl) _)
  | command =>
      have built := configured.command
      rw [Option.not_isSome_iff_eq_none.mp unnamed] at built
      exact built
  | entrypoint =>
      have built := configured.entrypoint
      rw [Option.not_isSome_iff_eq_none.mp unnamed] at built
      exact built
  | workingDir =>
      have built := configured.workingDir
      rw [Option.not_isSome_iff_eq_none.mp unnamed] at built
      exact (Except.ok.inj built).symm
  | schedule =>
      have built := timed
      rw [Option.not_isSome_iff_eq_none.mp unnamed] at built
      exact configured.schedule.trans (Except.ok.inj built).symm
  | notes =>
      have built := configured.notes
      rw [Option.not_isSome_iff_eq_none.mp unnamed] at built
      exact (Except.ok.inj built).symm
  | basicAuth =>
      have yields := configured.basicAuth
      rw [Option.not_isSome_iff_eq_none.mp unnamed] at yields
      exact Except.ok.inj (yields_run_pure.mp yields)
  | loginGate =>
      have built := configured.loginGate
      rw [Option.not_isSome_iff_eq_none.mp unnamed] at built
      exact (Except.ok.inj built).symm
  | portMappings =>
      have built := configured.portMappings
      rw [Option.not_isSome_iff_eq_none.mp unnamed] at built
      exact (Except.ok.inj built).symm
  | additionalPorts =>
      have taken := (normalize_additional_ports_iff.mp configured.additionalPorts).1
      rw [Option.not_isSome_iff_eq_none.mp unnamed] at taken
      exact taken
  | domains => exact custom_domains_idem stored service (web unnamed).2
  | httpOnlyDomains =>
      have silent : request.httpOnlyDomains = none ∧ ¬request.NamesDomains crates stored := by
        constructor
        · exact Option.not_isSome_iff_eq_none.mp fun named => unnamed (Or.inl named)
        · exact fun named => unnamed (Or.inr (Or.inl named))
      have normal : ∀ domain ∈ stored.domains, normalizeDomain crates domain = some domain := by
        by_contra odd
        exact unnamed (Or.inr (Or.inr odd))
      obtain ⟨isWeb, domains⟩ := web silent.2
      have whole := custom_domains_all kept normal
      have nothing : requestedHttpOnlyDomains crates request = none := by
        unfold requestedHttpOnlyDomains
        rw [silent.1]
        rfl
      have stays := http_only_again kept normal
      rw [← custom_http_only_all kept normal] at stays
      change service.httpOnlyDomains = stored.httpOnlyDomains
      rw [configured.httpOnly, nothing, isWeb, domains, whole]
      exact stays.trans (custom_http_only_all kept normal)
  | files =>
      have built := configured.files
      rw [Option.not_isSome_iff_eq_none.mp unnamed] at built
      exact (config_files_requested built).trans (config_files_requested kept.files).symm
  | rest => exact absurd trivial unnamed

end Target

/-- The update of the target builds the other services again as they are. -/
structure Rebuildable (crates : Crates) (target : Uuid) (app : App) : Prop where
  stored : ∀ service ∈ app.services, Stored crates app.id service
  names : (app.services.map (·.name)).Nodup
  ids : (app.services.map (·.id)).Nodup
  reproducible : ∀ service ∈ app.services, service.id ≠ target → Reproducible crates service

/-- What is not named of a service is as before; of a sibling nothing is named. -/
structure KeptBy (crates : Crates) (target : Uuid) (request : ServiceRequest)
    (before after : ContainerService) : Prop where
  sameId : after.id = before.id
  unnamed : ∀ setting, ¬(before.id = target ∧ request.Names crates before setting) →
    setting.read after = setting.read before

section Update

variable {crates : Crates} {target : Uuid} {request : ServiceRequest} {app : App} {isAdmin : Bool}
  {services : List ContainerService}

theorem sibling_kept_by {before after : ContainerService} (sibling : before.id ≠ target)
    (kept : SiblingKept target before after) : KeptBy crates target request before after := by
  obtain ⟨now, rfl⟩ := kept sibling
  refine ⟨rfl, fun setting _ => ?_⟩
  cases setting with
  | _ => rfl

variable {existing : List ContainerService}

theorem rounds_named {appId : Uuid} {requests : List ServiceRequest}
    (rounds : Rounds crates appId existing isAdmin requests services) :
    services.map (·.name) = requests.map fun request => Text.trim request.name := by
  induction rounds with
  | nil => rfl
  | cons first _ ih =>
      obtain ⟨origin, serviceType, schedule, round⟩ := first
      rw [List.map_cons, List.map_cons, ih, round.configured.named]

/-- An update that goes through was under a free name, if its service is there. -/
theorem update_name_free (rebuildable : Rebuildable crates target app)
    (rounds : Rounds crates app.id (carryRename target (Text.trim request.name) app.services) isAdmin
      (updateRequests target request app.services) services)
    (distinct : (services.map (·.name)).Nodup) (present : target ∈ app.services.map (·.id)) :
    ¬NameTaken app.services target request := by
  have named := rounds_named rounds
  rw [named] at distinct
  unfold updateRequests at distinct
  rw [List.map_map] at distinct
  rintro ⟨sibling, inSiblings, different, taken⟩
  obtain ⟨own, inServices, isTarget⟩ := List.mem_map.mp present
  have ofSibling : Text.trim (serviceRequestFromModel sibling).name = sibling.name :=
    (rebuildable.stored sibling inSiblings).named.1
  have same : sibling = own := by
    apply List.inj_on_of_nodup_map distinct inSiblings inServices
    simp only [Function.comp, isTarget, if_true, if_neg different]
    exact ofSibling.trans taken
  exact different (same ▸ isTarget)

theorem update_keeps_target (rebuildable : Rebuildable crates target app)
    (free : ¬NameTaken app.services target request) {before after : ContainerService}
    (member : before ∈ app.services) (isTarget : before.id = target)
    (round : ∃ origin serviceType schedule, Round crates app.id
      (carryRename target (Text.trim request.name) app.services) isAdmin request origin serviceType
      schedule after) : KeptBy crates target request before after := by
  obtain ⟨origin, serviceType, schedule, round⟩ := round
  have renamed : renamedTo target (Text.trim request.name) before =
      { before with name := Text.trim request.name } := if_pos isTarget
  have found : lookup (·.name) (Text.trim request.name)
      (carryRename target (Text.trim request.name) app.services).reverse =
        some { before with name := Text.trim request.name } := by
    have distinct := requested_names_distinct rebuildable.names rebuildable.ids free
    rw [carry_rename_map rebuildable.ids, ← renamed]
    have named : (renamedTo target (Text.trim request.name) before).name =
        Text.trim request.name := by rw [renamed]
    nth_rewrite 1 [← named]
    apply lookup_of_mem
    · rw [List.map_reverse, List.map_map]
      exact List.nodup_reverse.mpr distinct
    · exact List.mem_reverse.mpr (List.mem_map.mpr ⟨before, member, rfl⟩)
  have isOrigin : origin = { before with name := Text.trim request.name } := by
    cases round.starts with
    | stored other => exact Option.some.inj (other.symm.trans found)
    | new missing => cases missing.symm.trans found
  refine ⟨?_, fun setting unnamed => ?_⟩
  · rw [round.configured.sameId, isOrigin]
  · have resolved := round.resolved
    have timed := round.timed
    have configured := round.configured
    apply configured_leaves configured resolved timed (rebuildable.stored before member)
      ⟨_, isOrigin⟩
    exact fun named => unnamed ⟨isTarget, named⟩

theorem carry_rename_absent {name : String} (absent : target ∉ existing.map (·.id)) :
    carryRename target name existing = existing := by
  induction existing with
  | nil => rfl
  | cons service rest ih =>
      rw [List.map_cons, List.mem_cons, not_or] at absent
      rw [carryRename, if_neg (Ne.symm absent.1), ih absent.2]

theorem build_update_absent {appId : Uuid} (absent : target ∉ existing.map (·.id))
    (request other : ServiceRequest) : buildUpdate crates appId isAdmin target request existing =
      buildUpdate crates appId isAdmin target other existing := by
  unfold buildUpdate
  rw [carry_rename_absent absent, carry_rename_absent absent, update_requests_absent absent,
    update_requests_absent absent]

/-- Each service of the app is built again from its own record. -/
theorem update_keeps_services (lowers : crates.LowersAscii)
    (rebuildable : Rebuildable crates target app)
    (yields : (buildUpdate crates app.id isAdmin target request app.services).run.Yields
      (.ok services)) :
    List.Forall₂ (KeptBy crates target request) app.services services := by
  obtain ⟨rounds, distinct⟩ := build_services_rounds yields
  have nonempty : app.services ≠ [] := by
    intro empty
    rw [empty] at rounds yields
    unfold buildUpdate buildServices at yields
    obtain ⟨_, some_, -⟩ := yields_ok_bind.mp yields
    cases ensure_yields.mp some_
  have leaves := leaves_siblings lowers rebuildable.names rebuildable.ids rebuildable.stored
    rebuildable.reproducible nonempty
  by_cases present : target ∈ app.services.map (·.id)
  · have free := update_name_free rebuildable rounds distinct present
    have siblings := leaves request isAdmin _ free yields
    have each := List.forall₂_map_left_iff.mp rounds
    have members := (List.forall₂_and_left _ _).mpr ⟨fun before member => member, each⟩
    apply List.Forall₂.mp ?_ members siblings
    rintro before after ⟨member, round⟩ kept
    by_cases isTarget : before.id = target
    · rw [if_pos isTarget] at round
      exact update_keeps_target rebuildable free member isTarget round
    · exact sibling_kept_by isTarget kept
  · -- every request is made from a record, and the one of the body is not among them
    have free : ¬NameTaken app.services target { request with name := "" } := by
      rintro ⟨sibling, inSiblings, -, unnamed⟩
      have filled := (rebuildable.stored sibling inSiblings).named.2
      have blank : (Text.trim "").isEmpty = true := by decide
      rw [unnamed] at filled
      exact absurd (filled.symm.trans blank) Bool.false_ne_true
    rw [build_update_absent present request { request with name := "" }] at yields
    have siblings := leaves _ isAdmin _ free yields
    have members := (List.forall₂_and_left _ _).mpr ⟨fun before member => member, siblings⟩
    apply members.imp
    rintro before after ⟨member, kept⟩
    have sibling : before.id ≠ target := by
      intro isTarget
      exact present (List.mem_map.mpr ⟨before, member, isTarget⟩)
    exact sibling_kept_by sibling kept

/-- The service that is found under an id is built again and found under it. -/
theorem rebuilt_found {before after : List ContainerService}
    (kept : List.Forall₂ (KeptBy crates target request) before after) {id : Uuid}
    {row : ContainerService} (found : lookup (·.id) id before.reverse = some row) :
    ∃ built, lookup (·.id) id after.reverse = some built ∧ KeptBy crates target request row built := by
  have backwards := List.forall₂_reverse_iff.mpr kept
  generalize before.reverse = earlier, after.reverse = later at backwards found
  induction backwards with
  | nil => cases found
  | @cons first built rest others own _ ih =>
      unfold lookup at found ih ⊢
      by_cases isId : first.id = id
      · rw [List.find?_cons_of_pos (by simpa using isId)] at found
        cases found
        exact ⟨built, List.find?_cons_of_pos (by simpa using own.sameId.trans isId), own⟩
      · have other : ¬built.id = id := fun same => isId (own.sameId.symm.trans same)
        rw [List.find?_cons_of_neg (by simpa using isId)] at found
        rw [List.find?_cons_of_neg (by simpa using other)]
        exact ih found

end Update

end Containr.Api
