import Containr.Api.FieldRules
import Containr.Api.Services

/-!
# The settings of a service, as they are shown and sent back

Values of secrets and the registry password are shown as a mask. A mask that is sent back
stands for the stored value, whatever flag comes with it, so the settings a client shows and
sends back leave the service as it is.
-/

namespace Containr.Api

open Containr.Effect Containr.Pushes Containr.Worker

structure EditableEnvVarResponse where
  key : String
  value : String
  isSecret : Bool
deriving DecidableEq, Repr

structure HealthCheckResponse where
  path : String
  intervalSecs : Nat
  timeoutSecs : Nat
  retries : Nat
deriving DecidableEq, Repr

structure ServiceRegistryAuthResponse where
  server : Option String
  username : String
  password : String
deriving DecidableEq, Repr

structure BasicAuthResponse where
  username : String
deriving DecidableEq, Repr

structure LoginGateResponse where
  scope : String
deriving DecidableEq, Repr

structure PortMappingResponse where
  hostPort : Nat
  containerPort : Nat
  protocol : String
deriving DecidableEq, Repr

structure ServiceSettingsServiceResponse where
  name : String
  image : Option String
  serviceType : String
  port : Nat
  exposeHttp : Bool
  domains : List String
  httpOnlyDomains : List String
  additionalPorts : List Nat
  replicas : Nat
  memoryLimitMb : Option Nat
  cpuLimit : Option Float64
  dependsOn : List String
  healthCheck : Option HealthCheckResponse
  restartPolicy : String
  registryAuth : Option ServiceRegistryAuthResponse
  envVars : List EditableEnvVarResponse
  buildContext : Option String
  dockerfilePath : Option String
  buildTarget : Option String
  buildArgs : List EditableEnvVarResponse
  command : Option (List String)
  entrypoint : Option (List String)
  workingDir : Option String
  schedule : Option String
  mounts : List ServiceMountRequest
  notes : Option String
  basicAuth : Option BasicAuthResponse
  loginGate : Option LoginGateResponse
  portMappings : List PortMappingResponse
  files : List ConfigFileRequest
deriving DecidableEq, Repr

structure AutoDeploySettingsResponse where
  isEnabled : Bool
  watchPaths : List String
  cleanupStaleDeployments : Bool
  webhookPath : String
  webhookToken : String
deriving DecidableEq, Repr

structure ServiceSettingsResponse where
  serviceId : String
  resourceKind : String
  githubUrl : String
  branch : String
  envVars : List EditableEnvVarResponse
  rolloutStrategy : String
  autoDeploy : AutoDeploySettingsResponse
  service : ServiceSettingsServiceResponse
deriving DecidableEq, Repr

/-- The common body of the two functions below. -/
def maskedResponse (entry : Variable) : EditableEnvVarResponse :=
  ⟨entry.1, maskSecretValue entry.2.2 entry.2.1, entry.2.2⟩

def maskedEnvVarResponse (envVar : EnvVar) : EditableEnvVarResponse :=
  maskedResponse (envVarEntry envVar)

def buildArgEntry (buildArg : BuildArg) : Variable :=
  (buildArg.key, buildArg.value, buildArg.isSecret)

def maskedBuildArgResponse (buildArg : BuildArg) : EditableEnvVarResponse :=
  maskedResponse (buildArgEntry buildArg)

def serviceSettingsServiceResponse (service : ContainerService) : ServiceSettingsServiceResponse where
  name := service.name
  image := normalizeOptionalString (some service.image)
  serviceType := serviceTypeName service.serviceType
  port := service.port
  exposeHttp := service.exposeHttp
  domains := service.domains
  httpOnlyDomains := service.customHttpOnlyDomains
  additionalPorts := service.additionalPorts
  replicas := service.replicas
  memoryLimitMb := service.memoryLimit.map fun value => value / 1024 / 1024
  cpuLimit := service.cpuLimit
  dependsOn := service.dependsOn
  healthCheck := service.healthCheck.map fun check =>
    ⟨check.path, check.intervalSecs, check.timeoutSecs, check.retries⟩
  restartPolicy := restartPolicyLabel service.restartPolicy
  registryAuth := service.registryAuth.map fun auth =>
    ⟨auth.server, auth.username, maskSecretValue true auth.password⟩
  envVars := service.envVars.map maskedEnvVarResponse
  buildContext := service.buildContext
  dockerfilePath := service.dockerfilePath
  buildTarget := service.buildTarget
  buildArgs := service.buildArgs.map maskedBuildArgResponse
  command := service.command
  entrypoint := service.entrypoint
  workingDir := service.workingDir
  schedule := service.schedule
  mounts := service.mounts.map mountRequestFromModel
  notes := service.notes
  basicAuth := service.basicAuth.map fun auth => ⟨auth.username⟩
  loginGate := service.loginGate.map fun gate => ⟨loginGateScopeName gate.scope⟩
  portMappings := service.portMappings.map fun mapping =>
    ⟨mapping.hostPort, mapping.containerPort, mapping.protocol.asStr⟩
  files := service.files.map configFileRequest

def rolloutStrategyLabel : RolloutStrategy → String
  | .stopFirst => "stop_first"
  | .startFirst => "start_first"

/-- The answer of `get_service_settings` for the record it has loaded, which has a token by
then. -/
def serviceSettingsResponse (app : App) (service : ContainerService) : ServiceSettingsResponse :=
  let webhookToken := app.deployWebhookToken.getD ""
  { serviceId := service.id.toString
    resourceKind := "app_service"
    githubUrl := app.githubUrl
    branch := app.branch
    envVars := app.envVars.map maskedEnvVarResponse
    rolloutStrategy := rolloutStrategyLabel app.rolloutStrategy
    autoDeploy := {
      isEnabled := app.autoDeployEnabled
      watchPaths := app.autoDeployWatchPaths
      cleanupStaleDeployments := app.autoDeployCleanupStaleDeployments
      webhookPath := "/webhooks/deploy/" ++ service.id.toString ++ "?token=" ++ webhookToken
      webhookToken := webhookToken }
    service := serviceSettingsServiceResponse service }

def SentAsShown (shown : EditableEnvVarResponse) (request : EnvVarRequest) : Prop :=
  request.key = shown.key ∧ request.value = shown.value ∧
    (request.isSecret = some shown.isSecret ∨ shown.isSecret = true ∧ shown.value = secretMask)

theorem resolve_shown {entry : Variable} {request : EnvVarRequest}
    (sent : SentAsShown (maskedResponse entry) request) (label key : String) :
    resolveMaskedValue request.value request.isSecret (some entry.2) label key = .ok entry.2 := by
  obtain ⟨name, value, isSecret⟩ := entry
  obtain ⟨-, sameValue, flag⟩ := sent
  rw [sameValue]
  rcases flag with same | ⟨masked, isMask⟩
  · rw [same]
    exact resolve_masked_value_again value isSecret label key
  · have secret : isSecret = true := masked
    rw [isMask, secret]
    unfold resolveMaskedValue
    exact if_pos rfl

theorem build_variables_shown {stored : List Variable} (kept : VariablesKept stored)
    {sent : List EnvVarRequest} (shown : List.Forall₂ SentAsShown (stored.map maskedResponse) sent)
    (label : String) : buildVariables label (some sent) stored = .ok stored := by
  rw [List.forall₂_map_left_iff] at shown
  unfold buildVariables
  apply @foldlM_follows _ _ _ _ _ _ [] _ shown
  intro before entry after request split asShown
  have member : entry ∈ stored := by simp [split]
  obtain ⟨trimmed, filled⟩ := kept.1 entry member
  have sameKey : request.key = entry.1 := asShown.1
  apply push_variable_iff.mpr
  rw [sameKey, trimmed, lookup_reverse kept.2 member]
  refine ⟨filled, ?_, entry.2, resolve_shown asShown _ _, by simp⟩
  have distinct := kept.2
  rw [split, List.map_append, List.map_cons, List.nodup_append] at distinct
  intro earlier
  have inBefore : entry.1 ∈ before.map Prod.fst := by simpa using earlier
  exact distinct.2.2 entry.1 inBefore entry.1 List.mem_cons_self rfl

theorem built_shown {Out : Type} {read : Out → Variable} {make : Variable → Out}
    (inverse : ∀ out, make (read out) = out) {stored : List Out}
    (kept : VariablesKept (stored.map read)) {sent : List EnvVarRequest}
    (shown : List.Forall₂ SentAsShown (stored.map fun out => maskedResponse (read out)) sent)
    (label : String) :
    (buildVariables label (some sent) (stored.map read)).map (fun entries => entries.map make) =
      .ok stored := by
  have entries : stored.map (fun out => maskedResponse (read out)) =
      (stored.map read).map maskedResponse := by
    rw [List.map_map]
    rfl
  rw [entries] at shown
  rw [build_variables_shown kept shown label]
  have same : (stored.map read).map make = stored := by
    rw [List.map_map]
    exact (List.map_congr_left fun out _ => inverse out).trans (List.map_id _)
  exact congrArg Except.ok same

/-- Values of a secret that are both shown as the mask. -/
def VariableAlike (one other : Variable) : Prop :=
  other.1 = one.1 ∧ other.2.2 = one.2.2 ∧
    (other.2.1 = one.2.1 ∨ one.2.2 = true ∧ one.2.1 ≠ "" ∧ other.2.1 ≠ "")

def AuthAlike : Option ServiceRegistryAuth → Option ServiceRegistryAuth → Prop
  | none, none => True
  | some one, some other => other.server = one.server ∧ other.username = one.username ∧
      (other.password = one.password ∨ one.password ≠ "" ∧ other.password ≠ "")
  | _, _ => False

structure ServicesAlike (one other : ContainerService) : Prop where
  others : other = { one with
    registryAuth := other.registryAuth
    envVars := other.envVars
    buildArgs := other.buildArgs }
  registryAuth : AuthAlike one.registryAuth other.registryAuth
  envVars : List.Forall₂ VariableAlike (one.envVars.map envVarEntry) (other.envVars.map envVarEntry)
  buildArgs : List.Forall₂ VariableAlike (one.buildArgs.map buildArgEntry)
    (other.buildArgs.map buildArgEntry)

structure AppsAlike (one other : App) : Prop where
  others : other = { one with envVars := other.envVars, services := other.services }
  envVars : List.Forall₂ VariableAlike (one.envVars.map envVarEntry) (other.envVars.map envVarEntry)

theorem mask_filled {value : String} (filled : value ≠ "") :
    maskSecretValue true value = secretMask := by
  unfold maskSecretValue
  rw [if_pos (by simpa using filled)]

theorem masked_alike {one other : Variable} (alike : VariableAlike one other) :
    maskedResponse other = maskedResponse one := by
  obtain ⟨key, flag, values⟩ := alike
  unfold maskedResponse
  rw [key, flag]
  rcases values with same | ⟨secret, filled, otherFilled⟩
  · rw [same]
  · rw [secret, mask_filled filled, mask_filled otherFilled]

theorem masked_list_alike {Out : Type} {read : Out → Variable} {one other : List Out}
    (alike : List.Forall₂ VariableAlike (one.map read) (other.map read)) :
    other.map (fun out => maskedResponse (read out)) =
      one.map fun out => maskedResponse (read out) := by
  rw [List.forall₂_map_left_iff, List.forall₂_map_right_iff] at alike
  induction alike with
  | nil => rfl
  | cons first _ ih => rw [List.map_cons, List.map_cons, ih, masked_alike first]

theorem auth_alike_shown {one other : Option ServiceRegistryAuth} (alike : AuthAlike one other) :
    (other.map fun auth => (⟨auth.server, auth.username, maskSecretValue true auth.password⟩ :
      ServiceRegistryAuthResponse)) =
      one.map fun auth => ⟨auth.server, auth.username, maskSecretValue true auth.password⟩ := by
  cases one with
  | none =>
      cases other with
      | none => rfl
      | some auth => exact absurd alike id
  | some auth =>
      cases other with
      | none => exact absurd alike id
      | some next =>
          obtain ⟨server, username, passwords⟩ := alike
          rw [Option.map_some, Option.map_some, server, username]
          rcases passwords with same | ⟨filled, otherFilled⟩
          · rw [same]
          · rw [mask_filled filled, mask_filled otherFilled]

theorem service_settings_alike {one other : ContainerService} (alike : ServicesAlike one other) :
    serviceSettingsServiceResponse other = serviceSettingsServiceResponse one := by
  have auth := auth_alike_shown alike.registryAuth
  have envVars := masked_list_alike alike.envVars
  have buildArgs := masked_list_alike alike.buildArgs
  rw [alike.others]
  unfold serviceSettingsServiceResponse maskedEnvVarResponse maskedBuildArgResponse
  dsimp only
  rw [auth, envVars, buildArgs]
  rfl

/-- Settings that are sent back as they were shown, with any flags on the masked secrets,
restore what is stored; and what is shown does not depend on what the mask stands for. -/
theorem secrets_restored_and_hidden {envVars : List EnvVar} {buildArgs : List BuildArg}
    {sentVars sentArgs : List EnvVarRequest} {app otherApp : App} {one other : ContainerService}
    (varsKept : VariablesKept (envVars.map envVarEntry))
    (argsKept : VariablesKept (buildArgs.map buildArgEntry))
    (varsSent : List.Forall₂ SentAsShown (envVars.map maskedEnvVarResponse) sentVars)
    (argsSent : List.Forall₂ SentAsShown (buildArgs.map maskedBuildArgResponse) sentArgs)
    (appsAlike : AppsAlike app otherApp) (servicesAlike : ServicesAlike one other) :
    buildServiceEnvVars (some sentVars) envVars = .ok envVars ∧
      buildAppEnvVars (some sentVars) envVars = .ok envVars ∧
      buildServiceBuildArgs (some sentArgs) buildArgs = .ok buildArgs ∧
      serviceSettingsResponse otherApp other = serviceSettingsResponse app one := by
  have sameId : other.id = one.id := by
    rw [servicesAlike.others]
  have shared := masked_list_alike appsAlike.envVars
  refine ⟨built_shown (fun _ => rfl) varsKept varsSent _,
    built_shown (fun _ => rfl) varsKept varsSent _,
    built_shown (fun _ => rfl) argsKept argsSent _, ?_⟩
  unfold serviceSettingsResponse
  rw [sameId, service_settings_alike servicesAlike, appsAlike.others]
  unfold maskedEnvVarResponse
  dsimp only
  rw [shared]

/-- A secret, an empty secret and a plain value that reads as the mask. -/
def demoVars : List EnvVar :=
  [⟨"TOKEN", "real-value", true⟩, ⟨"EMPTY", "", true⟩, ⟨"STARS", "********", false⟩]

def demoSent : List EnvVarRequest :=
  [⟨"TOKEN", "********", some false⟩, ⟨"EMPTY", "", some true⟩, ⟨"STARS", "********", some false⟩]

def demoConfigured (token : String) : ContainerService :=
  { demoService with
    envVars := [⟨"TOKEN", token, true⟩]
    registryAuth := some ⟨none, "deploy", token⟩ }

theorem masked_token_restored :
    buildServiceEnvVars (some demoSent) demoVars = .ok demoVars ∧
      buildAppEnvVars (some demoSent) demoVars = .ok demoVars ∧
      buildServiceBuildArgs (some []) [] = .ok [] ∧
      serviceSettingsResponse demoApp (demoConfigured "second") =
        serviceSettingsResponse demoApp (demoConfigured "first") := by
  have kept : VariablesKept (demoVars.map envVarEntry) := by
    unfold VariablesKept Trimmed
    decide +kernel
  have sent : List.Forall₂ SentAsShown (demoVars.map maskedEnvVarResponse) demoSent := by
    refine .cons ⟨rfl, by decide, Or.inr ⟨rfl, by decide⟩⟩ (.cons ⟨rfl, by decide, Or.inl rfl⟩
      (.cons ⟨rfl, by decide, Or.inl rfl⟩ .nil))
  have noArgs : VariablesKept (([] : List BuildArg).map buildArgEntry) :=
    ⟨fun _ member => absurd member List.not_mem_nil, List.nodup_nil⟩
  have apps : AppsAlike demoApp demoApp := by
    refine ⟨rfl, ?_⟩
    rw [List.forall₂_same]
    exact fun _ _ => ⟨rfl, rfl, Or.inl rfl⟩
  have services : ServicesAlike (demoConfigured "first") (demoConfigured "second") := {
    others := rfl
    registryAuth := ⟨rfl, rfl, Or.inr ⟨by decide, by decide⟩⟩
    envVars := .cons ⟨rfl, rfl, Or.inr ⟨rfl, by decide, by decide⟩⟩ .nil
    buildArgs := .nil }
  exact secrets_restored_and_hidden kept noArgs sent .nil apps services

end Containr.Api
