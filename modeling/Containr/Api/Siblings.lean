import Containr.Api.WellFormed

/-!
# Updating one service leaves its siblings alone

`update_service` sends every sibling back as a request of its own. For a stored service this
request reproduces the service in all fields, unless its image has blanks around it, one of
its domains is not as the domain rule leaves it, or it is a cron job that has kept ports.
-/

namespace Containr.Api

open Containr.Effect Containr.Effect.Program Containr.Pushes Containr.Api.Services

/-- `str::to_lowercase` on ASCII. -/
def Crates.LowersAscii (crates : Crates) : Prop :=
  ∀ text : String, (∀ ch ∈ text.toList, ch.toNat < 128) →
    crates.toLowercase text = Text.toAsciiLowercase text

/-- The request made from the service is accepted and changes nothing. -/
structure Reproducible (crates : Crates) (service : ContainerService) : Prop where
  image : Text.trim service.image = service.image
  domains : ∀ domain ∈ service.domains, normalizeDomain crates domain = some domain
  unported : Unported service

section Domains

variable {crates : Crates} {appId : Uuid} {service : ContainerService}

theorem normalize_domains_all {domains : List String} (distinct : domains.Nodup)
    (each : ∀ domain ∈ domains, normalizeDomain crates domain = some domain) :
    normalizeDomains crates domains = domains := by
  unfold normalizeDomains
  rw [foldl_all _ (by simpa using distinct), List.nil_append]
  intro outs domain member fresh
  rw [each domain member]
  dsimp only
  rw [if_neg (by simpa using fresh)]

theorem normalize_domains_fixed {domains : List String}
    (fixed : normalizeDomains crates domains = domains) :
    ∀ domain ∈ domains, normalizeDomain crates domain = some domain := by
  unfold normalizeDomains at fixed
  refine @foldl_fixed _ _ (normalizeDomain crates) ?_ domains [] fixed
  intro outs domain
  dsimp only
  split
  · exact Or.inl rfl
  · rename_i found value
    split_ifs with known
    · exact Or.inl rfl
    · exact Or.inr ⟨found, value, rfl⟩

theorem normalize_domain_filled {domain : String}
    (normalized : normalizeDomain crates domain = some domain) : Text.blank domain = false := by
  cases isBlank : Text.blank domain with
  | false => rfl
  | true =>
      have none : Text.trimChars domain.toList = [] := by simpa [Text.blank] using isBlank
      unfold normalizeDomain Text.trim at normalized
      rw [none] at normalized
      cases normalized

theorem custom_domains_all (stored : Stored crates appId service)
    (normal : ∀ domain ∈ service.domains, normalizeDomain crates domain = some domain) :
    service.customDomains = service.domains := by
  unfold ContainerService.customDomains
  rw [foldl_all _ (by simpa using stored.domains), List.nil_append]
  intro outs domain member fresh
  rw [normalize_domain_filled (normal domain member)]
  have unknown : outs.contains domain = false := by simpa using fresh
  rw [unknown]
  rfl

theorem custom_http_only_all (stored : Stored crates appId service)
    (normal : ∀ domain ∈ service.domains, normalizeDomain crates domain = some domain) :
    service.customHttpOnlyDomains = service.httpOnlyDomains := by
  unfold ContainerService.customHttpOnlyDomains
  rw [foldl_all _ (by simpa using stored.httpOnly.1), List.nil_append]
  intro outs domain member fresh
  have known : service.customDomains.contains domain = true := by
    rw [custom_domains_all stored normal]
    simpa using stored.httpOnly.2 domain member
  have unknown : outs.contains domain = false := by simpa using fresh
  rw [known, unknown]
  rfl

theorem http_only_again (stored : Stored crates appId service)
    (normal : ∀ domain ∈ service.domains, normalizeDomain crates domain = some domain) :
    normalizeHttpOnlyDomains crates service.httpOnlyDomains service.domains =
      service.httpOnlyDomains := by
  unfold normalizeHttpOnlyDomains
  rw [normalize_domains_all stored.httpOnly.1 fun domain member =>
    normal domain (stored.httpOnly.2 domain member)]
  apply List.filter_eq_self.mpr
  intro domain member
  simpa using stored.httpOnly.2 domain member

end Domains

section Fields

variable {crates : Crates} {appId : Uuid} {service : ContainerService}

theorem some_unless_empty_get {Value : Type} (values : List Value) :
    (someUnlessEmpty values).getD [] = values := by
  unfold someUnlessEmpty
  cases values with
  | nil => rfl
  | cons value values => rfl

theorem additional_ports_again (stored : Stored crates appId service) :
    normalizeAdditionalPorts (someUnlessEmpty service.additionalPorts) service.additionalPorts
      service.port = .ok service.additionalPorts := by
  apply normalize_additional_ports_iff.mpr
  refine ⟨?_, stored.additionalPorts⟩
  unfold someUnlessEmpty
  split
  · rfl
  · rfl

theorem registry_auth_again (stored : Stored crates appId service) :
    buildServiceRegistryAuth service.registryAuth (serviceRequestFromModel service).registryAuth =
      (Pure.pure service.registryAuth : Handler _) := by
  have kept := stored.registryAuth
  unfold serviceRequestFromModel
  cases auth : service.registryAuth with
  | none => rfl
  | some auth_ =>
      obtain ⟨trimmed, server⟩ := kept auth_ auth
      have password : (normalizeOptionalString (some (maskSecretValue true auth_.password))).filter
          (fun text => text ≠ secretMask) = none := by
        unfold maskSecretValue
        cases empty : auth_.password.isEmpty with
        | true =>
            have same : auth_.password = "" := by simpa using empty
            rw [same]
            decide
        | false =>
            have masked : (if (true && !false) = true then secretMask else auth_.password) =
                secretMask := rfl
            rw [masked]
            decide
      unfold buildServiceRegistryAuth
      dsimp only [Option.map_some]
      rw [trimmed.normalized, server]
      simp only [Option.isNone_some, Bool.and_false, Bool.false_and, Bool.false_eq_true, if_false]
      unfold registryPassword
      rw [password]
      rfl

theorem variables_again {Out : Type} {label : String} {read : Out → Variable}
    {make : Variable → Out} (inverse : ∀ out, make (read out) = out) {stored : List Out}
    (kept : VariablesKept (stored.map read)) :
    (buildVariables label (someUnlessEmpty (stored.map fun out =>
      variableRequest (read out).1 (read out).2.1 (read out).2.2)) (stored.map read)).map
        (fun entries => entries.map make) = .ok stored := by
  have back : (stored.map read).map make = stored := by
    rw [List.map_map]
    exact (List.map_congr_left fun out _ => inverse out).trans (List.map_id _)
  have asked : (stored.map fun out => variableRequest (read out).1 (read out).2.1 (read out).2.2) =
      (stored.map read).map fun entry => variableRequest entry.1 entry.2.1 entry.2.2 := by
    rw [List.map_map]
    rfl
  unfold someUnlessEmpty
  split
  · rename_i empty
    have none : stored = [] := by simpa using empty
    rw [none]
    rfl
  · rw [asked, build_variables_again kept label]
    exact congrArg Except.ok back

theorem mounts_again (stored : Stored crates appId service) (isAdmin : Bool) :
    buildServiceMounts (serviceRequestFromModel service).mounts service.mounts isAdmin =
      .ok service.mounts := by
  unfold buildServiceMounts serviceRequestFromModel
  dsimp only
  rw [some_unless_empty_get]
  exact stored.mounts isAdmin

theorem basic_auth_again (stored : Stored crates appId service) :
    resolveServiceBasicAuth (serviceRequestFromModel service).basicAuth service.basicAuth =
      (Pure.pure service.basicAuth : Handler _) := by
  have kept := stored.basicAuth
  unfold serviceRequestFromModel
  cases auth : service.basicAuth with
  | none => rfl
  | some auth_ =>
      obtain ⟨trimmed, plain⟩ := kept auth_ auth
      unfold resolveServiceBasicAuth
      dsimp only [Option.map_some]
      rw [trimmed.normalized]
      dsimp only
      rw [plain]
      rfl

theorem port_mappings_again (stored : Stored crates appId service) (unported : Unported service) :
    resolvePortMappings (serviceRequestFromModel service).portMappings service.portMappings
      service.serviceType = .ok service.portMappings := by
  have pushed : (service.portMappings.map portMappingRequest).foldlM pushPortMapping [] =
      .ok service.portMappings := by
    apply foldlM_each
    exact stored.portMappings
  have shown : (serviceRequestFromModel service).portMappings =
      some (service.portMappings.map portMappingRequest) := rfl
  rw [shown]
  unfold resolvePortMappings
  simp only [except_bind_iff, refused_iff, returned_iff]
  refine ⟨_, pushed, ?_, rfl⟩
  intro refused
  simp only [Bool.and_eq_true, decide_eq_true_eq, Bool.not_eq_true'] at refused
  have none := (unported refused.2).2
  rw [none] at refused
  cases refused.1

theorem restart_policy_again (lowers : crates.LowersAscii) (policy : RestartPolicy) :
    parseRestartPolicy crates (some (restartPolicyLabel policy)) = policy := by
  have lowered : crates.toLowercase (restartPolicyLabel policy) = restartPolicyLabel policy := by
    cases policy with
    | never => exact lowers "never" (Text.every_char (by decide))
    | always => exact lowers "always" (Text.every_char (by decide))
    | onFailure => exact lowers "on-failure" (Text.every_char (by decide))
    | unlessStopped => exact lowers "unless-stopped" (Text.every_char (by decide))
  unfold parseRestartPolicy
  rw [Option.getD_some, lowered]
  cases policy with
  | never => rfl
  | always => rfl
  | onFailure => rfl
  | unlessStopped => rfl

theorem memory_again (stored : Stored crates appId service) :
    ((service.memoryLimit.map fun bytes => bytes / 1024 / 1024).map fun value =>
      value * 1024 * 1024 % 2 ^ 64) = service.memoryLimit := by
  obtain ⟨megabytes, same⟩ := stored.memory
  rw [same]
  cases megabytes with
  | none => rfl
  | some value =>
      simp only [Option.map_some, Option.some.injEq]
      omega

theorem build_target_again (target : Option String) :
    normalizeOptionalString target = target → (match target with
      | some text => normalizeOptionalString (some text)
      | none => target) = target := by
  intro kept
  cases target with
  | none => rfl
  | some text => exact kept

theorem health_check_again (check : Option HealthCheck) :
    ((check.map fun check => (⟨check.path, some check.intervalSecs, some check.timeoutSecs,
      some check.retries⟩ : HealthCheckRequest)).map fun check =>
        (⟨check.path, check.intervalSecs.getD 30, check.timeoutSecs.getD 5,
          check.retries.getD 3⟩ : HealthCheck)) = check := by
  cases check with
  | none => rfl
  | some check => rfl

theorem image_again (fixed : Text.trim service.image = service.image) :
    (normalizeOptionalString (some service.image)).getD "" = service.image := by
  unfold normalizeOptionalString
  rw [Option.map_some, fixed]
  cases empty : service.image.isEmpty with
  | true =>
      have same : service.image = "" := by simpa using empty
      rw [same]
      rfl
  | false => simp [Option.filter, empty]

theorem requested_service_domains_again :
    requestedServiceDomains crates (serviceRequestFromModel service) =
      (someUnlessEmpty service.domains).map (normalizeDomains crates) := by
  have domain : (serviceRequestFromModel service).domain = none := rfl
  have domains : (serviceRequestFromModel service).domains = someUnlessEmpty service.domains := rfl
  unfold requestedServiceDomains mergeDomains
  rw [domain, domains]
  cases someUnlessEmpty service.domains with
  | none => rfl
  | some sent => simp

theorem domains_again (stored : Stored crates appId service)
    (reproducible : Reproducible crates service) :
    serviceDomains service.serviceType
      (requestedServiceDomains crates (serviceRequestFromModel service)) service =
        service.domains := by
  unfold serviceDomains
  split_ifs with web
  · rw [requested_service_domains_again, custom_domains_all stored reproducible.domains]
    unfold someUnlessEmpty
    split_ifs with empty
    · rfl
    · rw [Option.map_some, Option.getD_some]
      exact normalize_domains_all stored.domains reproducible.domains
  · exact (stored.onlyWeb web).1.symm

theorem http_only_sent_back (stored : Stored crates appId service)
    (reproducible : Reproducible crates service) :
    serviceHttpOnlyDomains crates service.serviceType
      (requestedHttpOnlyDomains crates (serviceRequestFromModel service)) service.domains service =
        service.httpOnlyDomains := by
  unfold serviceHttpOnlyDomains
  split_ifs with web
  · have asked : requestedHttpOnlyDomains crates (serviceRequestFromModel service) =
        (someUnlessEmpty service.httpOnlyDomains).map (normalizeDomains crates) := by
      rw [← custom_http_only_all stored reproducible.domains]
      rfl
    have sent : (requestedHttpOnlyDomains crates (serviceRequestFromModel service)).getD
        service.customHttpOnlyDomains = service.httpOnlyDomains := by
      rw [asked, custom_http_only_all stored reproducible.domains]
      unfold someUnlessEmpty
      split_ifs with empty
      · rfl
      · rw [Option.map_some, Option.getD_some]
        exact normalize_domains_all stored.httpOnly.1 fun domain member =>
          reproducible.domains domain (stored.httpOnly.2 domain member)
    have same : ({ service with domains := service.domains } : ContainerService) = service := rfl
    rw [same, sent]
    exact http_only_again stored reproducible.domains
  · exact (stored.onlyWeb web).2.symm

end Fields

theorem checked_ok {Value : Type} (value : Value) :
    checked (.ok value) = (Pure.pure value : Handler Value) := rfl

theorem ensure_true {Error : Type} (error : Error) :
    ensure true error = (Pure.pure () : ExceptT Error (Program Effects) Unit) := rfl

/-- The round that only sets the time of the update. -/
def touched (service : ContainerService) : Handler ContainerService := do
  let now ← utcNow
  return { service with updatedAt := now }

section Rounds

variable {crates : Crates} {appId : Uuid} {service : ContainerService}

/-- The assignments of the round, with what the rules return. -/
theorem configured_again (lowers : crates.LowersAscii) (stored : Stored crates appId service)
    (reproducible : Reproducible crates service) (now : Time) :
    ({ service with
      appId := appId
      name := service.name
      image := (serviceRequestFromModel service).image.getD ""
      serviceType := service.serviceType
      port := (serviceRequestFromModel service).port
      exposeHttp := decide (service.serviceType = .webService)
      replicas := (serviceRequestFromModel service).replicas.getD 1
      memoryLimit := (serviceRequestFromModel service).memoryLimitMb.map fun value =>
        value * 1024 * 1024 % 2 ^ 64
      cpuLimit := (serviceRequestFromModel service).cpuLimit
      dependsOn := (serviceRequestFromModel service).dependsOn.getD []
      buildTarget := match (serviceRequestFromModel service).buildTarget with
        | some target => normalizeOptionalString (some target)
        | none => service.buildTarget
      command := normalizeOptionalArgs (serviceRequestFromModel service).command service.command
      entrypoint := normalizeOptionalArgs (serviceRequestFromModel service).entrypoint
        service.entrypoint
      healthCheck := (serviceRequestFromModel service).healthCheck.map fun check =>
        ⟨check.path, check.intervalSecs.getD 30, check.timeoutSecs.getD 5, check.retries.getD 3⟩
      restartPolicy := parseRestartPolicy crates (serviceRequestFromModel service).restartPolicy
      updatedAt := now } : ContainerService) = { service with updatedAt := now } := by
  have sent : (serviceRequestFromModel service).image =
      normalizeOptionalString (some service.image) := rfl
  have image : (serviceRequestFromModel service).image.getD "" = service.image := by
    rw [sent]
    exact image_again reproducible.image
  have memory : (serviceRequestFromModel service).memoryLimitMb.map (fun value =>
      value * 1024 * 1024 % 2 ^ 64) = service.memoryLimit := memory_again stored
  have dependsOn : (serviceRequestFromModel service).dependsOn.getD [] = service.dependsOn :=
    some_unless_empty_get _
  have command : normalizeOptionalArgs (serviceRequestFromModel service).command service.command =
      service.command := stored.command
  have entrypoint : normalizeOptionalArgs (serviceRequestFromModel service).entrypoint
      service.entrypoint = service.entrypoint := stored.entrypoint
  have healthCheck : ((serviceRequestFromModel service).healthCheck.map fun check =>
      (⟨check.path, check.intervalSecs.getD 30, check.timeoutSecs.getD 5,
        check.retries.getD 3⟩ : HealthCheck)) = service.healthCheck := health_check_again _
  have restart : parseRestartPolicy crates (serviceRequestFromModel service).restartPolicy =
      service.restartPolicy := restart_policy_again lowers service.restartPolicy
  have target : (match (serviceRequestFromModel service).buildTarget with
      | some target => normalizeOptionalString (some target)
      | none => service.buildTarget) = service.buildTarget :=
    build_target_again service.buildTarget stored.buildTarget
  rw [image, memory, dependsOn, command, entrypoint, healthCheck, restart, target,
    ← stored.exposes, ← stored.sameApp]
  rfl

theorem configure_service_again (lowers : crates.LowersAscii) (stored : Stored crates appId service)
    (reproducible : Reproducible crates service) (isAdmin : Bool) :
    configureService crates appId isAdmin service.name (serviceRequestFromModel service) service
      service.serviceType service.schedule = touched service := by
  have ports : normalizeAdditionalPorts (serviceRequestFromModel service).additionalPorts
      service.additionalPorts (serviceRequestFromModel service).port = .ok service.additionalPorts :=
    additional_ports_again stored
  have envVars : buildServiceEnvVars (serviceRequestFromModel service).envVars service.envVars =
      .ok service.envVars :=
    variables_again (fun _ => rfl) stored.envVars
  have buildArgs : buildServiceBuildArgs (serviceRequestFromModel service).buildArgs
      service.buildArgs = .ok service.buildArgs :=
    variables_again (fun _ => rfl) stored.buildArgs
  have buildContext : normalizeRepoRelativePath "service build context"
      (serviceRequestFromModel service).buildContext service.buildContext =
        .ok service.buildContext := by
    rw [normalize_repo_relative_path_rule]
    exact stored.buildContext.again
  have dockerfilePath : normalizeRepoRelativePath "service dockerfile path"
      (serviceRequestFromModel service).dockerfilePath service.dockerfilePath =
        .ok service.dockerfilePath := by
    rw [normalize_repo_relative_path_rule]
    exact stored.dockerfilePath.again
  have workingDir : normalizeWorkingDir (serviceRequestFromModel service).workingDir
      service.workingDir = .ok service.workingDir := by
    rw [normalize_working_dir_rule]
    exact stored.workingDir.again
  have notes : resolveServiceNotes (serviceRequestFromModel service).notes service.notes =
      .ok service.notes := stored.notes
  have gate : resolveLoginGate (serviceRequestFromModel service).loginGate service.loginGate =
      .ok service.loginGate := resolve_login_gate_again service.loginGate service.loginGate
  have files : buildConfigFiles crates ((serviceRequestFromModel service).files.getD
      (service.files.map configFileRequest)) service.mounts = .ok service.files := stored.files
  have notBoth : (!(service.basicAuth.isSome && service.loginGate.isSome)) = true := by
    rw [stored.notBoth]
    rfl
  unfold configureService touched
  simp only [ports, registry_auth_again stored, envVars, buildContext, dockerfilePath, buildArgs,
    workingDir, mounts_again stored isAdmin, notes, basic_auth_again stored, gate, notBoth,
    port_mappings_again stored reproducible.unported, files, checked_ok, ensure_true,
    LawfulMonad.pure_bind, domains_again stored reproducible,
    http_only_sent_back stored reproducible]
  apply congrArg
  funext now
  apply congrArg
  exact configured_again lowers stored reproducible now

theorem check_service_kind_again (stored : Stored crates appId service)
    (unported : Unported service) :
    checkServiceKind (serviceRequestFromModel service) service.serviceType
      (requestedServiceDomains crates (serviceRequestFromModel service)) service.schedule =
        .ok () := by
  have port : (serviceRequestFromModel service).port = service.port := rfl
  have replicas : (serviceRequestFromModel service).replicas.getD 1 = service.replicas := rfl
  have additional : (serviceRequestFromModel service).additionalPorts =
      someUnlessEmpty service.additionalPorts := rfl
  have expose : (serviceRequestFromModel service).exposeHttp = some service.exposeHttp := rfl
  have health : (serviceRequestFromModel service).healthCheck = service.healthCheck.map fun check =>
      ⟨check.path, some check.intervalSecs, some check.timeoutSecs, some check.retries⟩ := rfl
  apply check_service_kind_iff.mpr
  rw [port, replicas, additional, expose, health, stored.exposes, requested_service_domains_again]
  refine ⟨?_, ?_, ?_, ?_, stored.unscheduled⟩
  · intro portless
    constructor
    · rcases portless with worker | cron
      · rw [worker]
        decide
      · rw [cron]
        decide
    · intro zero
      rw [stored.unchecked portless zero]
      rfl
  · intro ported
    rcases stored.ported with worker | cron | nonzero
    · exact absurd (Or.inl worker) ported
    · exact absurd (Or.inr cron) ported
    · exact nonzero
  · intro noDomains
    have notWeb : service.serviceType ≠ .webService := by
      rcases noDomains with (worker | cron) | isPrivate
      · rw [worker]
        decide
      · rw [cron]
        decide
      · rw [isPrivate]
        decide
    rw [(stored.onlyWeb notWeb).1]
    rfl
  · intro cron
    obtain ⟨zero, one, scheduled⟩ := stored.scheduled cron
    rw [(unported cron).1]
    exact ⟨zero, one, rfl, scheduled⟩

/-- The request of a stored service is accepted and changes only the time of the update. -/
theorem build_service_again (lowers : crates.LowersAscii) (stored : Stored crates appId service)
    (reproducible : Reproducible crates service) {existing : List ContainerService}
    (found : lookup (·.name) service.name existing.reverse = some service) (isAdmin : Bool) :
    buildService crates appId existing isAdmin service.name (serviceRequestFromModel service) =
      touched service := by
  have origin : existingOrNew appId existing service.name (serviceRequestFromModel service) =
      .pure service := by
    unfold existingOrNew
    rw [found]
  have kind : resolveServiceType (serviceRequestFromModel service) service.serviceType =
      .ok service.serviceType := by
    have named : (serviceRequestFromModel service).serviceType =
        some (serviceTypeName service.serviceType) := rfl
    have requestable : parseServiceType (serviceTypeName service.serviceType) =
        some service.serviceType := stored.kind
    unfold resolveServiceType
    rw [named]
    dsimp only
    rw [requestable]
  have timed : normalizeCronSchedule crates (serviceRequestFromModel service).schedule
      service.schedule = .ok service.schedule := by
    rw [normalize_cron_schedule_rule]
    exact stored.schedule.again
  have lifted : (liftM (Program.pure service : Sys ContainerService) : Handler ContainerService) =
      Pure.pure service := rfl
  unfold buildService
  rw [origin, lifted]
  simp only [LawfulMonad.pure_bind, kind, timed,
    check_service_kind_again stored reproducible.unported, checked_ok,
    configure_service_again lowers stored reproducible isAdmin]

/-- A round that has changed only the time of the update was made for a reproducible
service. -/
theorem Round.reproducible (stored : Stored crates appId service)
    {existing : List ContainerService} {isAdmin : Bool} {serviceType : ServiceType}
    {schedule : Option String} {built : ContainerService} {now : Time}
    (round : Round crates appId existing isAdmin (serviceRequestFromModel service) service
      serviceType schedule built) (same : built = { service with updatedAt := now }) :
    Reproducible crates service := by
  have configured := round.configured
  rw [same] at configured
  have kind : service.serviceType = serviceType := configured.kind
  constructor
  · have image : service.image = (normalizeOptionalString (some service.image)).getD "" :=
      configured.image
    cases normalized : normalizeOptionalString (some service.image) with
    | none =>
        rw [normalized] at image
        rw [image]
        decide
    | some text =>
        rw [normalized] at image
        rw [image]
        exact (normalized_trimmed normalized).1
  · by_cases web : service.serviceType = .webService
    · have domains : service.domains = serviceDomains serviceType
          (requestedServiceDomains crates (serviceRequestFromModel service)) service :=
        configured.domains
      rw [requested_service_domains_again, ← kind] at domains
      unfold serviceDomains someUnlessEmpty at domains
      rw [if_pos web] at domains
      split_ifs at domains with empty
      · have none : service.domains = [] := by simpa using empty
        rw [none]
        exact fun _ member => absurd member List.not_mem_nil
      · rw [Option.map_some, Option.getD_some] at domains
        exact normalize_domains_fixed domains.symm
    · rw [(stored.onlyWeb web).1]
      exact fun _ member => absurd member List.not_mem_nil
  · intro cron
    obtain ⟨-, -, -, isCron, -⟩ := check_service_kind_iff.mp round.fits
    obtain ⟨-, -, silent, -⟩ := isCron (kind.symm.trans cron)
    have asked : (serviceRequestFromModel service).additionalPorts =
        someUnlessEmpty service.additionalPorts := rfl
    constructor
    · rw [asked] at silent
      unfold someUnlessEmpty at silent
      split_ifs at silent with empty
      · simpa using empty
      · simp at silent
        exact silent
    · have ports := (round.cron_ports (kind.symm.trans cron)).2
      rw [same] at ports
      exact ports

end Rounds

def NameTaken (existing : List ContainerService) (target : Uuid) (request : ServiceRequest) : Prop :=
  ∃ sibling ∈ existing, sibling.id ≠ target ∧ sibling.name = Text.trim request.name

/-- `build_services` as `update_service` calls it. -/
def buildUpdate (crates : Crates) (appId : Uuid) (isAdmin : Bool) (target : Uuid)
    (request : ServiceRequest) (existing : List ContainerService) :
    Handler (List ContainerService) :=
  buildServices crates appId (carryRename target (Text.trim request.name) existing)
    (updateRequests target request existing) isAdmin

def buildAlone (crates : Crates) (appId : Uuid) (isAdmin : Bool) (target : Uuid)
    (request : ServiceRequest) (existing : List ContainerService) :
    Handler (List ContainerService) :=
  buildServices crates appId (carryRename target (Text.trim request.name) existing) [request] isAdmin

def SiblingKept (target : Uuid) (before after : ContainerService) : Prop :=
  before.id ≠ target → ∃ now, after = { before with updatedAt := now }

/-- What the update returned for some of the services: their siblings kept, or the error the
request alone runs into. -/
def UpdateOutcome (crates : Crates) (appId : Uuid) (isAdmin : Bool) (target : Uuid)
    (request : ServiceRequest) (existing before : List ContainerService) :
    Except ApiError (List ContainerService) → Prop
  | .ok services => List.Forall₂ (SiblingKept target) before services
  | .error error =>
      (buildAlone crates appId isAdmin target request existing).run.Yields (.error error)

/-- An update under a free name keeps the siblings, or fails as the request alone does. -/
def LeavesSiblings (crates : Crates) (appId : Uuid) (existing : List ContainerService)
    (target : Uuid) : Prop :=
  ∀ request isAdmin outcome, ¬NameTaken existing target request →
    (buildUpdate crates appId isAdmin target request existing).run.Yields outcome →
      UpdateOutcome crates appId isAdmin target request existing existing outcome

/-- The record with the name its request asks for. -/
def renamedTo (target : Uuid) (name : String) (service : ContainerService) : ContainerService :=
  if service.id = target then { service with name := name } else service

section Update

variable {crates : Crates} {appId : Uuid} {target : Uuid} {request : ServiceRequest}
  {isAdmin : Bool} {existing : List ContainerService}

theorem carry_rename_map {name : String} (ids : (existing.map (·.id)).Nodup) :
    carryRename target name existing = existing.map (renamedTo target name) := by
  induction existing with
  | nil => rfl
  | cons service rest ih =>
      rw [List.map_cons, List.nodup_cons] at ids
      unfold carryRename
      rw [List.map_cons]
      split_ifs with isTarget
      · have others : rest.map (renamedTo target name) = rest := by
          apply (List.map_congr_left fun other member => ?_).trans (List.map_id rest)
          have different : other.id ≠ target := by
            intro same
            exact ids.1 (List.mem_map.mpr ⟨other, member, same.trans isTarget.symm⟩)
          exact if_neg different
        rw [others]
        unfold renamedTo
        rw [if_pos isTarget]
      · rw [ih ids.2]
        unfold renamedTo
        rw [if_neg isTarget]

theorem renamed_to_sibling {name : String} {service : ContainerService}
    (sibling : service.id ≠ target) : renamedTo target name service = service := if_neg sibling

theorem requested_names_distinct (names : (existing.map (·.name)).Nodup)
    (ids : (existing.map (·.id)).Nodup) (free : ¬NameTaken existing target request) :
    (existing.map fun service =>
      (renamedTo target (Text.trim request.name) service).name).Nodup := by
  have apart := (List.pairwise_map.mp names).and (List.pairwise_map.mp ids)
  apply List.pairwise_map.mpr
  apply apart.imp_of_mem
  intro first second inFirst inSecond different
  unfold renamedTo
  split_ifs with isFirst isSecond isSecond
  · exact absurd (isFirst.trans isSecond.symm) different.2
  · exact fun same => free ⟨second, inSecond, isSecond, same.symm⟩
  · exact fun same => free ⟨first, inFirst, isFirst, same⟩
  · exact different.1

variable {service : ContainerService}

theorem sibling_found (names : (existing.map (·.name)).Nodup) (ids : (existing.map (·.id)).Nodup)
    (free : ¬NameTaken existing target request) (member : service ∈ existing)
    (sibling : service.id ≠ target) :
    lookup (·.name) service.name (carryRename target (Text.trim request.name) existing).reverse =
      some service := by
  rw [carry_rename_map ids]
  apply lookup_of_mem
  · rw [List.map_reverse, List.map_map]
    exact List.nodup_reverse.mpr (requested_names_distinct names ids free)
  · rw [List.mem_reverse]
    exact List.mem_map.mpr ⟨service, member, renamed_to_sibling sibling⟩

theorem touched_yields {outcome : Except ApiError ContainerService} :
    (touched service).run.Yields outcome →
      ∃ now, outcome = .ok { service with updatedAt := now } := by
  intro yields
  unfold touched at yields
  obtain ⟨now, -, yields⟩ := yields_lift_bind.mp yields
  exact ⟨now, yields_run_pure.mp yields⟩

theorem build_each_sibling (lowers : crates.LowersAscii) (stored : Stored crates appId service)
    (reproducible : Reproducible crates service) {whole : List ContainerService}
    (found : lookup (·.name) service.name whole.reverse = some service) {seen : List String}
    (unseen : service.name ∉ seen) (rest : List ServiceRequest) :
    buildEach crates appId whole isAdmin seen (serviceRequestFromModel service :: rest) = do
      let built ← touched service
      let others ← buildEach crates appId whole isAdmin (service.name :: seen) rest
      return built :: others := by
  have named : (serviceRequestFromModel service).name = service.name := rfl
  have known : seen.contains service.name = false := by simpa using unseen
  rw [buildEach]
  rw [named, stored.named.1, stored.named.2, known,
    build_service_again lowers stored reproducible found isAdmin]
  rfl

theorem build_alone_fails {whole : List ContainerService} {error : ApiError}
    (failed : (ensure (!(Text.trim request.name).isEmpty)
        (badRequest "service name cannot be empty")).run.Yields (.error error) ∨
      (Text.trim request.name).isEmpty = false ∧
        (buildService crates appId whole isAdmin (Text.trim request.name) request).run.Yields
          (.error error)) :
    (buildServices crates appId whole [request] isAdmin).run.Yields (.error error) := by
  unfold buildServices
  refine yields_run_bind.mpr (Or.inl ⟨(), ensure_yields.mpr rfl, ?_⟩)
  rw [buildEach]
  rcases failed with unnamed | ⟨named, refused⟩
  · exact yields_run_bind.mpr (Or.inr ⟨error, unnamed, rfl⟩)
  · refine yields_run_bind.mpr (Or.inl ⟨(), ensure_yields.mpr (by rw [named]; rfl), ?_⟩)
    refine yields_run_bind.mpr (Or.inl ⟨(), ensure_yields.mpr rfl, ?_⟩)
    exact yields_run_bind.mpr (Or.inr ⟨error, refused, rfl⟩)

variable {outcome : Except ApiError (List ContainerService)} {built : ContainerService}

theorem yields_push {program : Handler (List ContainerService)}
    (yields : (do let others ← program; return built :: others : Handler _).run.Yields outcome) :
    ∃ rest, program.run.Yields rest ∧ outcome = rest.map (List.cons built) := by
  rcases yields_run_bind.mp yields with ⟨others, first, pushed⟩ | ⟨error, failed, same⟩
  · exact ⟨.ok others, first, yields_run_pure.mp pushed⟩
  · exact ⟨.error error, failed, same⟩

theorem UpdateOutcome.push {before : List ContainerService}
    (kept : SiblingKept target service built)
    (rest : UpdateOutcome crates appId isAdmin target request existing before outcome) :
    UpdateOutcome crates appId isAdmin target request existing (service :: before)
      (outcome.map (List.cons built)) := by
  cases outcome with
  | ok services => exact .cons kept rest
  | error error => exact rest

/-- The rounds of some of the services, the earlier ones seen. -/
theorem build_each_update (lowers : crates.LowersAscii)
    (names : (existing.map (·.name)).Nodup) (ids : (existing.map (·.id)).Nodup)
    (stored : ∀ service ∈ existing, Stored crates appId service)
    (reproducible : ∀ service ∈ existing, service.id ≠ target → Reproducible crates service)
    (free : ¬NameTaken existing target request) {rest : List ContainerService}
    (inside : ∀ service ∈ rest, service ∈ existing)
    (distinct : (rest.map fun service =>
      (renamedTo target (Text.trim request.name) service).name).Nodup) {seen : List String}
    (unseen : ∀ service ∈ rest, (renamedTo target (Text.trim request.name) service).name ∉ seen)
    {outcome : Except ApiError (List ContainerService)}
    (yields : (buildEach crates appId (carryRename target (Text.trim request.name) existing) isAdmin
      seen (updateRequests target request rest)).run.Yields outcome) :
    UpdateOutcome crates appId isAdmin target request existing rest outcome := by
  induction rest generalizing seen outcome with
  | nil =>
      rw [yields_run_pure.mp yields]
      exact .nil
  | cons service rest ih =>
      have member := inside service List.mem_cons_self
      have others : ∀ other ∈ rest, other ∈ existing := fun other later =>
        inside other (List.mem_cons_of_mem _ later)
      rw [List.map_cons, List.nodup_cons] at distinct
      have named := unseen service List.mem_cons_self
      have apart : ∀ other ∈ rest, (renamedTo target (Text.trim request.name) other).name ∉
          (renamedTo target (Text.trim request.name) service).name :: seen := by
        intro other later inSeen
        rcases List.mem_cons.mp inSeen with same | old
        · exact distinct.1 (List.mem_map.mpr ⟨other, later, same⟩)
        · exact unseen other (List.mem_cons_of_mem _ later) old
      have goOn := @ih others distinct.2
        ((renamedTo target (Text.trim request.name) service).name :: seen) apart
      by_cases isTarget : service.id = target
      · have asked : updateRequests target request (service :: rest) =
            request :: updateRequests target request rest := by
          unfold updateRequests
          rw [List.map_cons, if_pos isTarget]
        have renamed : (renamedTo target (Text.trim request.name) service).name =
            Text.trim request.name := by
          unfold renamedTo
          rw [if_pos isTarget]
        rw [renamed] at named goOn
        have known : seen.contains (Text.trim request.name) = false := by simpa using named
        have alone := fun error failed => @build_alone_fails crates appId request isAdmin
          (carryRename target (Text.trim request.name) existing) error failed
        rw [asked, buildEach] at yields
        rcases yields_run_bind.mp yields with ⟨_, filled, yields⟩ | ⟨error, failed, same⟩
        · rw [known] at yields
          rcases yields_run_bind.mp yields with ⟨_, -, yields⟩ | ⟨error, impossible, -⟩
          · rcases yields_run_bind.mp yields with ⟨built, -, yields⟩ | ⟨error, failed, same⟩
            · obtain ⟨outcome_, pushed, same⟩ := yields_push yields
              rw [same]
              exact .push (fun sibling => absurd isTarget sibling) (goOn pushed)
            · rw [same]
              exact alone error (Or.inr ⟨(Bool.not_eq_true' _).mp (ensure_yields.mp filled), failed⟩)
          · cases yields_run_pure.mp impossible
        · rw [same]
          exact alone error (Or.inl failed)
      · have asked : updateRequests target request (service :: rest) =
            serviceRequestFromModel service :: updateRequests target request rest := by
          unfold updateRequests
          rw [List.map_cons, if_neg isTarget]
        have same := @renamed_to_sibling target (Text.trim request.name) service isTarget
        rw [same] at named goOn
        rw [asked, build_each_sibling lowers (stored service member)
          (reproducible service member isTarget) (sibling_found names ids free member isTarget)
          named] at yields
        rcases yields_run_bind.mp yields with ⟨built, first, yields⟩ | ⟨error, failed, same⟩
        · obtain ⟨now, isBuilt⟩ := touched_yields first
          obtain ⟨outcome_, pushed, same⟩ := yields_push yields
          rw [same]
          exact .push (fun _ => ⟨now, Except.ok.inj isBuilt⟩) (goOn pushed)
        · obtain ⟨now, impossible⟩ := touched_yields failed
          cases impossible

theorem leaves_siblings (lowers : crates.LowersAscii)
    (names : (existing.map (·.name)).Nodup) (ids : (existing.map (·.id)).Nodup)
    (stored : ∀ service ∈ existing, Stored crates appId service)
    (reproducible : ∀ service ∈ existing, service.id ≠ target → Reproducible crates service)
    (nonempty : existing ≠ []) : LeavesSiblings crates appId existing target := by
  intro request isAdmin outcome free yields
  have asked : (updateRequests target request existing).isEmpty = false := by
    unfold updateRequests
    simpa using nonempty
  unfold buildUpdate buildServices at yields
  rw [asked] at yields
  rcases yields_run_bind.mp yields with ⟨_, -, yields⟩ | ⟨error, impossible, -⟩
  · exact build_each_update lowers names ids stored reproducible free (fun _ member => member)
      (by simpa using requested_names_distinct names ids free) (fun _ _ => List.not_mem_nil) yields
  · cases yields_run_pure.mp impossible

/-- Where the siblings were kept they are reproducible. -/
theorem rounds_reproducible (names : (existing.map (·.name)).Nodup)
    (ids : (existing.map (·.id)).Nodup)
    (stored : ∀ service ∈ existing, Stored crates appId service)
    (free : ¬NameTaken existing target request) {before after : List ContainerService}
    (inside : ∀ service ∈ before, service ∈ existing)
    (rounds : Rounds crates appId (carryRename target (Text.trim request.name) existing) isAdmin
      (updateRequests target request before) after)
    (kept : List.Forall₂ (SiblingKept target) before after) :
    ∀ service ∈ before, service.id ≠ target → Reproducible crates service := by
  induction kept with
  | nil => exact fun _ member => absurd member List.not_mem_nil
  | @cons service built before after first rest ih =>
      have others : ∀ other ∈ before, other ∈ existing := fun other later =>
        inside other (List.mem_cons_of_mem _ later)
      unfold updateRequests at rounds
      rw [List.map_cons] at rounds
      cases rounds with
      | cons round rounds =>
          intro other member sibling
          rcases List.mem_cons.mp member with isFirst | later
          · rw [isFirst] at sibling ⊢
            have existed := inside service List.mem_cons_self
            obtain ⟨now, same⟩ := first sibling
            rw [if_neg sibling] at round
            obtain ⟨origin, serviceType, schedule, round⟩ := round
            have named : Text.trim (serviceRequestFromModel service).name = service.name :=
              (stored service existed).named.1
            have isOrigin : origin = service := by
              have found := sibling_found names ids free existed sibling
              rw [← named] at found
              cases round.starts with
              | stored other => exact Option.some.inj (other.symm.trans found)
              | new missing => cases missing.symm.trans found
            rw [isOrigin] at round
            exact round.reproducible (stored service existed) same
          · exact ih others rounds other later sibling

end Update

/-- A worker that sets nothing and keeps nothing that a check reads. -/
def workerRequest (name : String) : ServiceRequest :=
  { demoServiceRequest name with
    serviceType := some "background_worker"
    port := 0
    schedule := some ""
    additionalPorts := some []
    portMappings := some []
    files := some []
    basicAuth := some none
    loginGate := some none }

variable (crates : Crates) (appId : Uuid) (isAdmin : Bool)

theorem worker_configured (name : String) (service : ContainerService) (error : ApiError) :
    ¬(configureService crates appId isAdmin name (workerRequest name) service .backgroundWorker
      none).run.Yields (.error error) := by
  intro yields
  unfold configureService at yields
  have ports : normalizeAdditionalPorts (workerRequest name).additionalPorts service.additionalPorts
      (workerRequest name).port = .ok [] := rfl
  have registryAuth : buildServiceRegistryAuth service.registryAuth
      (workerRequest name).registryAuth = Pure.pure service.registryAuth := rfl
  have envVars : buildServiceEnvVars (workerRequest name).envVars service.envVars =
      .ok ((service.envVars.map envVarEntry).map fun entry => ⟨entry.1, entry.2.1, entry.2.2⟩) := rfl
  have buildContext : normalizeRepoRelativePath "service build context"
      (workerRequest name).buildContext service.buildContext = .ok service.buildContext := rfl
  have dockerfilePath : normalizeRepoRelativePath "service dockerfile path"
      (workerRequest name).dockerfilePath service.dockerfilePath = .ok service.dockerfilePath := rfl
  have buildArgs : buildServiceBuildArgs (workerRequest name).buildArgs service.buildArgs =
      .ok ((service.buildArgs.map fun arg => (arg.key, arg.value, arg.isSecret)).map fun entry =>
        ⟨entry.1, entry.2.1, entry.2.2⟩) := rfl
  have workingDir : normalizeWorkingDir (workerRequest name).workingDir service.workingDir =
      .ok service.workingDir := rfl
  have mounts : buildServiceMounts (workerRequest name).mounts service.mounts isAdmin = .ok [] := rfl
  have notes : resolveServiceNotes (workerRequest name).notes service.notes = .ok service.notes := rfl
  have basicAuth : resolveServiceBasicAuth (workerRequest name).basicAuth service.basicAuth =
      Pure.pure none := rfl
  have gate : resolveLoginGate (workerRequest name).loginGate service.loginGate = .ok none := rfl
  have mappings : resolvePortMappings (workerRequest name).portMappings service.portMappings
      .backgroundWorker = .ok [] := rfl
  have files : buildConfigFiles crates ((workerRequest name).files.getD
      (service.files.map configFileRequest)) [] = .ok [] := rfl
  simp only [ports, registryAuth, envVars, buildContext, dockerfilePath, buildArgs, workingDir,
    mounts, notes, basicAuth, gate, mappings, files, checked_ok, LawfulMonad.pure_bind] at yields
  obtain ⟨now, -, yields⟩ := yields_lift_bind.mp yields
  cases yields_run_pure.mp yields

theorem worker_built (name : String) (existing : List ContainerService) (error : ApiError) :
    ¬(buildService crates appId existing isAdmin name (workerRequest name)).run.Yields
      (.error error) := by
  intro yields
  have kind : ∀ stored, resolveServiceType (workerRequest name) stored = .ok .backgroundWorker :=
    fun _ => rfl
  have timed : ∀ stored, normalizeCronSchedule crates (workerRequest name).schedule stored =
      .ok none := fun _ => rfl
  have fits : checkServiceKind (workerRequest name) .backgroundWorker
      (requestedServiceDomains crates (workerRequest name)) none = .ok () := rfl
  unfold buildService at yields
  simp only [kind, timed, fits, checked_ok, LawfulMonad.pure_bind] at yields
  obtain ⟨service, -, yields⟩ := yields_lift_bind.mp yields
  exact worker_configured crates appId isAdmin name service error yields

theorem worker_alone (target : Uuid) {name : String} (filled : Trimmed name)
    (existing : List ContainerService) (error : ApiError) :
    ¬(buildAlone crates appId isAdmin target (workerRequest name) existing).run.Yields
      (.error error) := by
  intro yields
  have named : Text.trim (workerRequest name).name = name := filled.1
  have asked : (!name.isEmpty) = true := by rw [filled.2]; rfl
  unfold buildAlone buildServices at yields
  rcases yields_run_bind.mp yields with ⟨_, -, yields⟩ | ⟨error_, impossible, -⟩
  · rw [buildEach, named, asked] at yields
    simp only [ensure_true, LawfulMonad.pure_bind] at yields
    rcases yields_run_bind.mp yields with ⟨_, -, yields⟩ | ⟨error_, impossible, -⟩
    · rcases yields_run_bind.mp yields with ⟨built, -, yields⟩ | ⟨error_, refused, -⟩
      · cases yields_run_pure.mp yields
      · exact worker_built crates appId isAdmin name _ error_ refused
    · cases yields_run_pure.mp impossible
  · cases yields_run_pure.mp impossible

/-- An update leaves the siblings alone, whatever it asks for under a free name, exactly when
the requests made from them reproduce them. -/
theorem updates_leave_siblings_iff {crates : Crates} {appId : Uuid} {calls : List BuildCall}
    {existing : List ContainerService} (lowers : crates.LowersAscii)
    (reached : Reachable crates appId calls existing) (ids : (existing.map (·.id)).Nodup)
    {target : ContainerService} (member : target ∈ existing) :
    LeavesSiblings crates appId existing target.id ↔
      ∀ service ∈ existing, service.id ≠ target.id → Reproducible crates service := by
  obtain ⟨stored, names⟩ := reached.stored
  constructor
  · intro leaves
    have trimmed := (stored target member).named
    have free : ¬NameTaken existing target.id (workerRequest target.name) := by
      rintro ⟨sibling, isIn, different, same⟩
      have sameName : sibling.name = target.name := same.trans trimmed.1
      rw [List.inj_on_of_nodup_map names isIn member sameName] at different
      exact different rfl
    have answered : ∀ op : Effects.Op, Nonempty (Effects.Answer op) := fun op =>
      ⟨(op.exec (calm op World.empty) World.empty).1⟩
    obtain ⟨outcome, yields⟩ := exists_yields answered
      (buildUpdate crates appId false target.id (workerRequest target.name) existing).run
    have result := leaves _ false outcome free yields
    cases outcome with
    | ok services =>
        obtain ⟨rounds, -⟩ := build_services_rounds yields
        exact rounds_reproducible names ids stored free (fun _ inside => inside) rounds result
    | error error =>
        exact absurd result (worker_alone crates appId false target.id trimmed existing error)
  · intro reproducible
    exact leaves_siblings lowers names ids stored reproducible (List.ne_nil_of_mem member)

def asciiCrates : Crates := { demoCrates with toLowercase := Text.toAsciiLowercase }

theorem ascii_crates_lower : asciiCrates.LowersAscii := fun _ _ => rfl

/-- What `build_services` returns when nothing fails. -/
def asciiBuilt (existing : List ContainerService) (requests : List ServiceRequest) :
    Except ApiError (List ContainerService) :=
  ((buildServices asciiCrates ⟨1⟩ existing requests false).run.run system calm World.empty).1

theorem ascii_built_yields {existing : List ContainerService} {requests : List ServiceRequest}
    {outcome : Except ApiError (List ContainerService)}
    (built : asciiBuilt existing requests = outcome) :
    (buildServices asciiCrates ⟨1⟩ existing requests false).run.Yields outcome := by
  have run := runs_run system calm calm_admitted
    (buildServices asciiCrates ⟨1⟩ existing requests false).run World.empty
  rw [← built]
  exact run.yields

def demoApi : ContainerService :=
  { ContainerService.new ⟨2⟩ 0 ⟨1⟩ "api" "nginx" 80 with
    serviceType := .privateService
    exposeHttp := false }

def demoCalls (request : ServiceRequest) (job : ContainerService) : List BuildCall :=
  [⟨[], [demoWebRequest, demoServiceRequest "api"], [demoWeb, demoApi]⟩,
    ⟨[demoWeb, demoApi], [request, demoServiceRequest "api"], [job, demoApi]⟩]

theorem demo_calls_reachable {request : ServiceRequest} {job : ContainerService}
    (built : asciiBuilt [demoWeb, demoApi] [request, demoServiceRequest "api"] =
      .ok [job, demoApi]) :
    Reachable asciiCrates ⟨1⟩ (demoCalls request job) [job, demoApi] := by
  have first : asciiBuilt [] [demoWebRequest, demoServiceRequest "api"] =
      .ok [demoWeb, demoApi] := by decide +kernel
  exact .build (.build .none .nil (ascii_built_yields first)) (renamed_refl _)
    (ascii_built_yields built)

/-- Beside a cron job that has named its ports, updates of the other service go through. -/
theorem updates_beside_cron_job :
    ∃ calls, Reachable asciiCrates ⟨1⟩ calls [demoCron [] [], demoApi] ∧
      LeavesSiblings asciiCrates ⟨1⟩ [demoCron [] [], demoApi] demoApi.id := by
  have built : asciiBuilt [demoWeb, demoApi]
      [{ demoCronRequest with additionalPorts := some [], portMappings := some [] },
        demoServiceRequest "api"] = .ok [demoCron [] [], demoApi] := by decide +kernel
  have reached := demo_calls_reachable built
  refine ⟨_, reached, ?_⟩
  apply (updates_leave_siblings_iff ascii_crates_lower reached (by decide) (by simp)).mpr
  intro service member sibling
  rcases List.mem_cons.mp member with isCron | isApi
  · rw [isCron]
    exact ⟨by decide, nofun, fun _ => ⟨rfl, rfl⟩⟩
  · rw [List.mem_singleton.mp isApi] at sibling
    exact absurd rfl sibling

/-- Beside one that has kept them, every update is rejected. -/
theorem update_rejected_for_cron_job :
    ∃ calls existing, Reachable asciiCrates ⟨1⟩ calls existing ∧
      existing = [demoCron [9090] [⟨8443, 9090, .tcp⟩], demoApi] ∧
      (buildUpdate asciiCrates ⟨1⟩ false demoApi.id (workerRequest "api") existing).run.Yields
        (.error (badRequest "cron jobs cannot expose additional ports")) ∧
      ¬LeavesSiblings asciiCrates ⟨1⟩ existing demoApi.id := by
  have built : asciiBuilt [demoWeb, demoApi] [demoCronRequest, demoServiceRequest "api"] =
      .ok [demoCron [9090] [⟨8443, 9090, .tcp⟩], demoApi] := by decide +kernel
  have rejected : (buildUpdate asciiCrates ⟨1⟩ false demoApi.id (workerRequest "api")
      [demoCron [9090] [⟨8443, 9090, .tcp⟩], demoApi]).run.Yields
        (.error (badRequest "cron jobs cannot expose additional ports")) := by
    apply ascii_built_yields
    decide +kernel
  refine ⟨_, _, demo_calls_reachable built, rfl, rejected, ?_⟩
  intro leaves
  have free : ¬NameTaken [demoCron [9090] [⟨8443, 9090, .tcp⟩], demoApi] demoApi.id
      (workerRequest "api") := by
    rintro ⟨sibling, member, different, same⟩
    rcases List.mem_cons.mp member with isCron | isApi
    · rw [isCron] at same
      exact absurd same (by decide)
    · rw [List.mem_singleton.mp isApi] at different
      exact different rfl
  have alone := leaves _ false _ free rejected
  exact worker_alone asciiCrates ⟨1⟩ false demoApi.id ⟨by decide, by decide⟩ _ _ alone

end Containr.Api
