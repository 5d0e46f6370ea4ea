import Containr.Api.BuildServices
import Containr.Api.FieldRules
import Containr.Effect.Yields

/-!
# What `build_services` stores

A round of the loop starts from a stored service or from a new one and applies the field
rules. `Stored` is what every service satisfies that came out of it, whatever requests led
there. It is not yet what a service is meant to be: a cron job can keep the ports of the
kind it was before.
-/

namespace Containr.Api

open Containr.Effect Containr.Effect.Program Containr.Pushes

section Yields

variable {Value : Type}

theorem checked_yields {result outcome : Checked Value} :
    (checked result).run.Yields outcome ↔ outcome = result := yields_pure

theorem ensure_yields {Error : Type} {condition : Bool} {error : Error} {outcome : Unit} :
    (ensure condition error).run.Yields (.ok outcome) ↔ condition = true := by
  cases condition with
  | true => exact ⟨fun _ => rfl, fun _ => yields_pure.mpr rfl⟩
  | false => exact ⟨fun yields => (nomatch yields_pure.mp yields), nofun⟩

end Yields

/-- What a round of the loop stores. -/
structure Configured (crates : Crates) (appId : Uuid) (isAdmin : Bool) (name : String)
    (request : ServiceRequest) (origin : ContainerService) (serviceType : ServiceType)
    (schedule : Option String) (service : ContainerService) : Prop where
  sameId : service.id = origin.id
  sameApp : service.appId = appId
  named : service.name = name
  image : service.image = request.image.getD ""
  kind : service.serviceType = serviceType
  port : service.port = request.port
  exposes : service.exposeHttp = decide (serviceType = .webService)
  replicas : service.replicas = request.replicas.getD 1
  memory : service.memoryLimit = request.memoryLimitMb.map fun value => value * 1024 * 1024 % 2 ^ 64
  schedule : service.schedule = schedule
  domains : service.domains =
    serviceDomains serviceType (requestedServiceDomains crates request) origin
  httpOnly : service.httpOnlyDomains = serviceHttpOnlyDomains crates serviceType
    (requestedHttpOnlyDomains crates request) service.domains origin
  buildTarget : service.buildTarget = match request.buildTarget with
    | some target => normalizeOptionalString (some target)
    | none => origin.buildTarget
  command : service.command = normalizeOptionalArgs request.command origin.command
  entrypoint : service.entrypoint = normalizeOptionalArgs request.entrypoint origin.entrypoint
  healthCheck : service.healthCheck.isSome = request.healthCheck.isSome
  additionalPorts : normalizeAdditionalPorts request.additionalPorts origin.additionalPorts
    request.port = .ok service.additionalPorts
  registryAuth : (buildServiceRegistryAuth origin.registryAuth request.registryAuth).run.Yields
    (.ok service.registryAuth)
  envVars : buildServiceEnvVars request.envVars origin.envVars = .ok service.envVars
  buildContext : normalizeRepoRelativePath "service build context" request.buildContext
    origin.buildContext = .ok service.buildContext
  dockerfilePath : normalizeRepoRelativePath "service dockerfile path" request.dockerfilePath
    origin.dockerfilePath = .ok service.dockerfilePath
  buildArgs : buildServiceBuildArgs request.buildArgs origin.buildArgs = .ok service.buildArgs
  workingDir : normalizeWorkingDir request.workingDir origin.workingDir = .ok service.workingDir
  mounts : buildServiceMounts request.mounts origin.mounts isAdmin = .ok service.mounts
  notes : resolveServiceNotes request.notes origin.notes = .ok service.notes
  basicAuth : (resolveServiceBasicAuth request.basicAuth origin.basicAuth).run.Yields
    (.ok service.basicAuth)
  loginGate : resolveLoginGate request.loginGate origin.loginGate = .ok service.loginGate
  notBoth : (service.basicAuth.isSome && service.loginGate.isSome) = false
  portMappings : resolvePortMappings request.portMappings origin.portMappings serviceType =
    .ok service.portMappings
  files : buildConfigFiles crates (request.files.getD (origin.files.map configFileRequest))
    service.mounts = .ok service.files

variable {crates : Crates} {appId : Uuid} {isAdmin : Bool} {name : String}
  {request : ServiceRequest} {origin service : ContainerService} {serviceType : ServiceType}
  {schedule : Option String}

theorem configure_service_configured
    (yields : (configureService crates appId isAdmin name request origin serviceType
      schedule).run.Yields (.ok service)) :
    Configured crates appId isAdmin name request origin serviceType schedule service := by
  unfold configureService at yields
  simp only [yields_ok_bind, checked_yields, ensure_yields, yields_run_pure,
    Except.ok.injEq] at yields
  obtain ⟨additionalPorts, ports, registryAuth, registry, envVars, env, buildContext, context,
    dockerfilePath, dockerfile, buildArgs, args, workingDir, dir, mounts, mounted, notes, noted,
    basicAuth, basic, loginGate, gate, _, notBoth, portMappings, mapped, files, filed, now, -,
    same⟩ := yields
  rw [same]
  exact {
    sameId := rfl
    sameApp := rfl
    named := rfl
    image := rfl
    kind := rfl
    port := rfl
    exposes := rfl
    replicas := rfl
    memory := rfl
    schedule := rfl
    domains := rfl
    httpOnly := rfl
    buildTarget := rfl
    command := rfl
    entrypoint := rfl
    healthCheck := by simp
    additionalPorts := ports.symm
    registryAuth := registry
    envVars := env.symm
    buildContext := context.symm
    dockerfilePath := dockerfile.symm
    buildArgs := args.symm
    workingDir := dir.symm
    mounts := mounted.symm
    notes := noted.symm
    basicAuth := basic
    loginGate := gate.symm
    notBoth := (Bool.not_eq_true' _).mp notBoth
    portMappings := mapped.symm
    files := filed.symm }

def BasicAuthKept (stored : Option BasicAuth) : Prop :=
  ∀ auth, stored = some auth → Trimmed auth.username ∧ auth.username.toList.contains ':' = false

theorem resolve_service_basic_auth_kept {value : Option (Option BasicAuthRequest)}
    {existing result : Option BasicAuth} (kept : BasicAuthKept existing)
    (yields : (resolveServiceBasicAuth value existing).run.Yields (.ok result)) :
    BasicAuthKept result := by
  unfold resolveServiceBasicAuth at yields
  match value with
  | none =>
      cases yields_run_pure.mp yields
      exact kept
  | some none =>
      cases yields_run_pure.mp yields
      exact nofun
  | some (some request) =>
      dsimp only at yields
      cases normalized : normalizeOptionalString request.username with
      | none =>
          rw [normalized] at yields
          cases yields_run_pure.mp yields
          exact nofun
      | some username =>
          rw [normalized] at yields
          dsimp only at yields
          simp only [yields_ok_bind, ensure_yields, yields_run_pure] at yields
          obtain ⟨_, plain, hash, -, same⟩ := yields
          cases same
          intro auth isAuth
          cases isAuth
          exact ⟨normalized_trimmed normalized, (Bool.not_eq_true' _).mp plain⟩

def RegistryAuthKept (stored : Option ServiceRegistryAuth) : Prop :=
  ∀ auth, stored = some auth → Trimmed auth.username ∧
    normalizeOptionalString auth.server = auth.server

theorem build_service_registry_auth_kept {request : Option ServiceRegistryAuthRequest}
    {existing result : Option ServiceRegistryAuth} (kept : RegistryAuthKept existing)
    (yields : (buildServiceRegistryAuth existing request).run.Yields (.ok result)) :
    RegistryAuthKept result := by
  unfold buildServiceRegistryAuth at yields
  cases request with
  | none =>
      cases yields_run_pure.mp yields
      exact kept
  | some request =>
      dsimp only at yields
      split_ifs at yields with empty
      · cases yields_run_pure.mp yields
        exact nofun
      · cases normalized : normalizeOptionalString request.username with
        | none =>
            rw [normalized] at yields
            cases yields_run_throw.mp yields
        | some username =>
            rw [normalized] at yields
            dsimp only at yields
            simp only [yields_ok_bind, yields_run_pure] at yields
            obtain ⟨password, -, same⟩ := yields
            cases same
            intro auth isAuth
            cases isAuth
            exact ⟨normalized_trimmed normalized, normalize_optional_string_idem _⟩

def variablesOf (buildArg : BuildArg) : Variable := (buildArg.key, buildArg.value, buildArg.isSecret)

def MappingsKept (stored : List PortMapping) : Prop :=
  ∀ before mapping after, stored = before ++ mapping :: after →
    pushPortMapping before (portMappingRequest mapping) = .ok (before ++ [mapping])

theorem resolve_port_mappings_kept {value : Option (List PortMappingRequest)}
    {existing result : List PortMapping} (kept : MappingsKept existing)
    (accepted : resolvePortMappings value existing serviceType = .ok result) :
    MappingsKept result := by
  cases value with
  | none =>
      cases accepted
      exact kept
  | some requests =>
      unfold resolvePortMappings at accepted
      simp only [except_bind_iff, refused_iff, returned_iff] at accepted
      obtain ⟨mappings, pushed, -, same⟩ := accepted
      rw [same]
      intro before mapping after split
      obtain ⟨item, -, put⟩ := (pushed_of_foldlM push_port_mapping_appends pushed).1 before mapping
        after split
      exact push_port_mapping_again put

structure FieldsKept (crates : Crates) (service : ContainerService) : Prop where
  kind : Requestable service.serviceType
  schedule : TextKept (cronCheck crates) service.schedule
  registryAuth : RegistryAuthKept service.registryAuth
  envVars : VariablesKept (service.envVars.map envVarEntry)
  buildContext : TextKept (repoPathCheck "service build context") service.buildContext
  dockerfilePath : TextKept (repoPathCheck "service dockerfile path") service.dockerfilePath
  buildTarget : normalizeOptionalString service.buildTarget = service.buildTarget
  buildArgs : VariablesKept (service.buildArgs.map variablesOf)
  command : normalizeOptionalArgs service.command service.command = service.command
  entrypoint : normalizeOptionalArgs service.entrypoint service.entrypoint = service.entrypoint
  workingDir : TextKept workingDirCheck service.workingDir
  notes : resolveServiceNotes (some service.notes) service.notes = .ok service.notes
  basicAuth : BasicAuthKept service.basicAuth
  portMappings : MappingsKept service.portMappings

theorem new_fields_kept (crates : Crates) (id : Uuid) (now : Time) (appId : Uuid)
    (name image : String) (port : Nat) :
    FieldsKept crates (ContainerService.new id now appId name image port) where
  kind := by
    show parseServiceType (serviceTypeName .privateService) = some .privateService
    decide
  schedule := nofun
  registryAuth := nofun
  envVars := ⟨nofun, List.nodup_nil⟩
  buildContext := nofun
  dockerfilePath := nofun
  buildTarget := rfl
  buildArgs := ⟨nofun, List.nodup_nil⟩
  command := rfl
  entrypoint := rfl
  workingDir := nofun
  notes := rfl
  basicAuth := nofun
  portMappings := by
    intro before mapping after split
    cases before with
    | nil => cases split
    | cons _ _ => cases split

theorem built_variables_kept {Out : Type} {label : String} {requests : Option (List EnvVarRequest)}
    {read : Out → Variable} {make : Variable → Out} (inverse : ∀ entry, read (make entry) = entry)
    {existing result : List Out} (kept : VariablesKept (existing.map read))
    (accepted : (buildVariables label requests (existing.map read)).map
      (fun entries => entries.map make) = .ok result) : VariablesKept (result.map read) := by
  cases built : buildVariables label requests (existing.map read) with
  | error error =>
      rw [built] at accepted
      cases accepted
  | ok entries =>
      rw [built] at accepted
      cases accepted
      have same : (entries.map make).map read = entries := by
        rw [List.map_map]
        exact (List.map_congr_left fun entry _ => inverse entry).trans (List.map_id _)
      rw [same]
      exact build_variables_kept kept built

/-- What holds of every service `build_services` returns. -/
structure Stored (crates : Crates) (appId : Uuid) (service : ContainerService) : Prop
    extends FieldsKept crates service where
  sameApp : service.appId = appId
  named : Trimmed service.name
  exposes : service.exposeHttp = decide (service.serviceType = .webService)
  ported : service.serviceType = .backgroundWorker ∨ service.serviceType = .cronJob ∨
    service.port ≠ 0
  unchecked : service.serviceType = .backgroundWorker ∨ service.serviceType = .cronJob →
    service.port = 0 → service.healthCheck = none
  scheduled : service.serviceType = .cronJob →
    service.port = 0 ∧ service.replicas = 1 ∧ service.schedule.isSome = true
  unscheduled : service.serviceType ≠ .cronJob → service.schedule = none
  additionalPorts : PortsFit service.additionalPorts service.port
  memory : ∃ megabytes : Option Nat,
    service.memoryLimit = megabytes.map fun value => value * 1024 * 1024 % 2 ^ 64
  onlyWeb : service.serviceType ≠ .webService →
    service.domains = [] ∧ service.httpOnlyDomains = []
  domains : service.domains.Nodup
  httpOnly : service.httpOnlyDomains.Nodup ∧
    ∀ domain ∈ service.httpOnlyDomains, domain ∈ service.domains
  mounts : MountsKept service.mounts
  notBoth : (service.basicAuth.isSome && service.loginGate.isSome) = false
  files : buildConfigFiles crates (service.files.map configFileRequest) service.mounts =
    .ok service.files

theorem normalize_domains_nodup (crates : Crates) (domains : List String) :
    (normalizeDomains crates domains).Nodup := by
  apply foldl_nodup _ _ List.nodup_nil
  intro normalized domain distinct
  cases normalizeDomain crates domain with
  | none => exact distinct
  | some value =>
      dsimp only
      split_ifs with known
      · exact distinct
      · exact nodup_snoc distinct (by simpa using known)

theorem custom_domains_nodup (service : ContainerService) : service.customDomains.Nodup := by
  apply foldl_nodup _ _ List.nodup_nil
  intro domains domain distinct
  split_ifs with taken
  · have fresh : !Text.blank domain = true ∧ domain ∉ domains := by simpa using taken
    exact nodup_snoc distinct fresh.2
  · exact distinct

theorem service_domains_nodup (crates : Crates) (serviceType : ServiceType)
    (request : ServiceRequest) (origin : ContainerService) :
    (serviceDomains serviceType (requestedServiceDomains crates request) origin).Nodup := by
  unfold serviceDomains requestedServiceDomains
  split
  · split
    · exact custom_domains_nodup origin
    · exact normalize_domains_nodup crates _
  · exact List.nodup_nil

theorem service_http_only_domains_fit (crates : Crates) (serviceType : ServiceType)
    (requested : Option (List String)) (domains : List String) (origin : ContainerService) :
    (serviceHttpOnlyDomains crates serviceType requested domains origin).Nodup ∧
      ∀ domain ∈ serviceHttpOnlyDomains crates serviceType requested domains origin,
        domain ∈ domains := by
  unfold serviceHttpOnlyDomains
  split
  · constructor
    · exact (normalize_domains_nodup crates _).filter _
    · intro domain member
      simpa using (List.mem_filter.mp member).2
  · exact ⟨List.nodup_nil, nofun⟩

/-- The kinds that need no port. -/
def Portless (serviceType : ServiceType) : Prop :=
  serviceType = .backgroundWorker ∨ serviceType = .cronJob

theorem check_service_kind_iff {domains : Option (List String)} :
    checkServiceKind request serviceType domains schedule = .ok () ↔
      (Portless serviceType → request.exposeHttp ≠ some true ∧
        (request.port = 0 → request.healthCheck = none)) ∧
      (¬Portless serviceType → request.port ≠ 0) ∧
      (Portless serviceType ∨ serviceType = .privateService →
        (domains.any fun domains => !domains.isEmpty) = false) ∧
      (serviceType = .cronJob → request.port = 0 ∧ request.replicas.getD 1 = 1 ∧
        (request.additionalPorts.any fun ports => !ports.isEmpty) = false ∧
        schedule.isSome = true) ∧
      (serviceType ≠ .cronJob → schedule = none) := by
  unfold checkServiceKind Portless
  cases serviceType
  all_goals
    simp only [refused_iff, refused_last_iff, reduceCtorEq, if_true, if_false, or_false, or_true,
      decide_true, decide_false, Bool.true_and, Bool.false_and, Bool.false_eq_true,
      Bool.and_eq_true, decide_eq_true_eq, Option.isSome_iff_ne_none, Option.isNone_iff_eq_none,
      Bool.not_eq_true]
    tauto

/-- A round keeps what services keep. -/
theorem stored_of_configured (kept : FieldsKept crates origin) (filled : Trimmed name)
    (resolved : resolveServiceType request origin.serviceType = .ok serviceType)
    (timed : normalizeCronSchedule crates request.schedule origin.schedule = .ok schedule)
    (fits : checkServiceKind request serviceType (requestedServiceDomains crates request) schedule =
      .ok ())
    (configured : Configured crates appId isAdmin name request origin serviceType schedule service) :
    Stored crates appId service := by
  obtain ⟨portless, ported, -, cron, plain⟩ := check_service_kind_iff.mp fits
  rw [normalize_cron_schedule_rule] at timed
  have context := configured.buildContext
  have dockerfile := configured.dockerfilePath
  have dir := configured.workingDir
  rw [normalize_repo_relative_path_rule] at context dockerfile
  rw [normalize_working_dir_rule] at dir
  have ports := (normalize_additional_ports_iff.mp configured.additionalPorts).2
  have target : normalizeOptionalString service.buildTarget = service.buildTarget := by
    rw [configured.buildTarget]
    cases request.buildTarget with
    | none => exact kept.buildTarget
    | some target => exact normalize_optional_string_idem _
  exact {
    kind := configured.kind ▸ resolve_service_type_requestable kept.kind resolved
    schedule := configured.schedule ▸ trimmed_rule_kept kept.schedule timed
    registryAuth := build_service_registry_auth_kept kept.registryAuth configured.registryAuth
    envVars := built_variables_kept (fun _ => rfl) kept.envVars configured.envVars
    buildContext := trimmed_rule_kept kept.buildContext context
    dockerfilePath := trimmed_rule_kept kept.dockerfilePath dockerfile
    buildTarget := target
    buildArgs := built_variables_kept (fun _ => rfl) kept.buildArgs configured.buildArgs
    command := configured.command ▸ normalize_optional_args_again kept.command
    entrypoint := configured.entrypoint ▸ normalize_optional_args_again kept.entrypoint
    workingDir := trimmed_rule_kept kept.workingDir dir
    notes := resolve_service_notes_again kept.notes configured.notes
    basicAuth := resolve_service_basic_auth_kept kept.basicAuth configured.basicAuth
    portMappings := resolve_port_mappings_kept kept.portMappings configured.portMappings
    sameApp := configured.sameApp
    named := configured.named ▸ filled
    exposes := by rw [configured.exposes, configured.kind]
    ported := by
      rw [configured.kind, configured.port]
      by_cases isPortless : Portless serviceType
      · rcases isPortless with worker | cron
        · exact Or.inl worker
        · exact Or.inr (Or.inl cron)
      · exact Or.inr (Or.inr (ported isPortless))
    unchecked := by
      rw [configured.kind, configured.port]
      intro isPortless zero
      have none := (portless isPortless).2 zero
      have same := configured.healthCheck
      rw [none] at same
      simpa using same
    scheduled := by
      rw [configured.kind, configured.port, configured.replicas, configured.schedule]
      intro isCron
      obtain ⟨zero, one, -, some⟩ := cron isCron
      exact ⟨zero, one, some⟩
    unscheduled := by
      rw [configured.kind, configured.schedule]
      exact plain
    additionalPorts := configured.port ▸ ports
    memory := ⟨request.memoryLimitMb, configured.memory⟩
    onlyWeb := by
      rw [configured.kind, configured.httpOnly, configured.domains]
      intro notWeb
      unfold serviceDomains serviceHttpOnlyDomains
      rw [if_neg notWeb, if_neg notWeb]
      exact ⟨rfl, rfl⟩
    domains := configured.domains ▸ service_domains_nodup crates serviceType request origin
    httpOnly := configured.httpOnly ▸ service_http_only_domains_fit crates serviceType _ _ origin
    mounts := build_service_mounts_kept configured.mounts
    notBoth := configured.notBoth
    files := build_config_files_again configured.files }

inductive StartsFrom (existing : List ContainerService) (name : String) : ContainerService → Prop
  where
  | stored {origin : ContainerService} (found : lookup (·.name) name existing.reverse = some origin) :
      StartsFrom existing name origin
  | new (missing : lookup (·.name) name existing.reverse = none) (id : Uuid) (now : Time)
      (appId : Uuid) (image : String) (port : Nat) :
      StartsFrom existing name (ContainerService.new id now appId name image port)

theorem existing_or_new_yields {existing : List ContainerService}
    (yields : (existingOrNew appId existing name request).Yields origin) :
    StartsFrom existing name origin := by
  unfold existingOrNew at yields
  cases found : lookup (·.name) name existing.reverse with
  | some service =>
      rw [found] at yields
      rw [yields_pure.mp yields]
      exact .stored found
  | none =>
      rw [found] at yields
      obtain ⟨id, -, yields⟩ := yields_bind.mp yields
      obtain ⟨now, -, yields⟩ := yields_bind.mp yields
      rw [yields_pure.mp yields]
      exact .new found id now appId _ _

structure Round (crates : Crates) (appId : Uuid) (existing : List ContainerService)
    (isAdmin : Bool) (request : ServiceRequest) (origin : ContainerService)
    (serviceType : ServiceType) (schedule : Option String) (service : ContainerService) : Prop where
  filled : Trimmed (Text.trim request.name)
  starts : StartsFrom existing (Text.trim request.name) origin
  resolved : resolveServiceType request origin.serviceType = .ok serviceType
  timed : normalizeCronSchedule crates request.schedule origin.schedule = .ok schedule
  fits : checkServiceKind request serviceType (requestedServiceDomains crates request) schedule =
    .ok ()
  configured : Configured crates appId isAdmin (Text.trim request.name) request origin serviceType
    schedule service

def Rounds (crates : Crates) (appId : Uuid) (existing : List ContainerService) (isAdmin : Bool) :
    List ServiceRequest → List ContainerService → Prop :=
  List.Forall₂ fun request service => ∃ origin serviceType schedule,
    Round crates appId existing isAdmin request origin serviceType schedule service

variable {existing services : List ContainerService} {requests : List ServiceRequest}

theorem build_service_round (filled : Trimmed (Text.trim request.name))
    (yields : (buildService crates appId existing isAdmin (Text.trim request.name) request).run.Yields
      (.ok service)) : ∃ origin serviceType schedule,
        Round crates appId existing isAdmin request origin serviceType schedule service := by
  unfold buildService at yields
  simp only [yields_ok_bind, yields_run_lift, checked_yields] at yields
  obtain ⟨origin, came, serviceType, resolved, schedule, timed, _, fits, configured⟩ := yields
  exact ⟨origin, serviceType, schedule, filled, existing_or_new_yields came, resolved.symm,
    timed.symm, fits.symm, configure_service_configured configured⟩

theorem build_each_rounds {seen : List String}
    (yields : (buildEach crates appId existing isAdmin seen requests).run.Yields (.ok services)) :
    Rounds crates appId existing isAdmin requests services ∧ (services.map (·.name)).Nodup ∧
      ∀ service ∈ services, service.name ∉ seen := by
  induction requests generalizing seen services with
  | nil =>
      cases yields_run_pure.mp yields
      exact ⟨.nil, List.nodup_nil, fun _ member => absurd member List.not_mem_nil⟩
  | cons request requests ih =>
      unfold buildEach at yields
      simp only [yields_ok_bind, ensure_yields, yields_run_pure, Except.ok.injEq] at yields
      obtain ⟨_, named, _, unseen, service, built, others, rest, same⟩ := yields
      have filled : Trimmed (Text.trim request.name) :=
        ⟨Text.trim_idem _, (Bool.not_eq_true' _).mp named⟩
      have fresh : Text.trim request.name ∉ seen := by simpa using unseen
      obtain ⟨origin, serviceType, schedule, round⟩ := build_service_round filled built
      have isNamed : service.name = Text.trim request.name := round.configured.named
      obtain ⟨rounds, distinct, apart⟩ := ih rest
      rw [same]
      refine ⟨.cons ⟨origin, serviceType, schedule, round⟩ rounds, ?_, ?_⟩
      · rw [List.map_cons, List.nodup_cons]
        refine ⟨fun member => ?_, distinct⟩
        obtain ⟨other, inOthers, sameName⟩ := List.mem_map.mp member
        exact apart other inOthers (by simp [sameName, isNamed])
      · intro other member
        rcases List.mem_cons.mp member with isFirst | later
        · rw [isFirst, isNamed]
          exact fresh
        · exact fun old => apart other later (List.mem_cons_of_mem _ old)

theorem build_services_rounds
    (yields : (buildServices crates appId existing requests isAdmin).run.Yields (.ok services)) :
    Rounds crates appId existing isAdmin requests services ∧ (services.map (·.name)).Nodup := by
  unfold buildServices at yields
  simp only [yields_ok_bind, ensure_yields] at yields
  obtain ⟨_, -, each⟩ := yields
  obtain ⟨rounds, distinct, -⟩ := build_each_rounds each
  exact ⟨rounds, distinct⟩

/-- The services come out stored when those they start from keep their fields. -/
theorem Rounds.stored (kept : ∀ service ∈ existing, FieldsKept crates service)
    (rounds : Rounds crates appId existing isAdmin requests services) :
    ∀ service ∈ services, Stored crates appId service := by
  induction rounds with
  | nil => exact fun _ member => absurd member List.not_mem_nil
  | @cons request service requests services first rest ih =>
      intro other member
      rcases List.mem_cons.mp member with isFirst | later
      · obtain ⟨origin, serviceType, schedule, round⟩ := first
        have originKept : FieldsKept crates origin := by
          cases round.starts with
          | stored found =>
              exact kept origin (List.mem_reverse.mp (lookup_eq_some_mem found).1)
          | new missing id now appId image port =>
              exact new_fields_kept crates id now appId _ image port
        rw [isFirst]
        exact stored_of_configured originKept round.filled round.resolved round.timed round.fits
          round.configured
      · exact ih other later

end Containr.Api
