import Containr.Api.Asides
import Containr.Api.Siblings

/-!
# What a request names of an app

A request that saves an app saves all of it. It names a few settings of the app, or of one
of its services, and the others are to be saved as the request has them.
-/

namespace Containr.Api.Services

open Containr.Effect Containr.Effect.Program Containr.Worker

inductive Setting where
  | name | githubUrl | branch | envVar (key : String) | rolloutStrategy | autoDeployEnabled
  | watchPaths | cleanup | deployWebhookToken
  /-- The owner, the domains and the port. -/
  | rest

namespace Setting

abbrev Value : Setting → Type
  | .name | .githubUrl | .branch => String
  | .envVar _ => List EnvVar
  | .rolloutStrategy => RolloutStrategy
  | .autoDeployEnabled | .cleanup => Bool
  | .watchPaths => List String
  | .deployWebhookToken => Option String
  | .rest => Uuid × List String × Nat

def read (app : App) : (setting : Setting) → setting.Value
  | .name => app.name
  | .githubUrl => app.githubUrl
  | .branch => app.branch
  | .envVar key => app.envVars.filter fun envVar => envVar.key = key
  | .rolloutStrategy => app.rolloutStrategy
  | .autoDeployEnabled => app.autoDeployEnabled
  | .watchPaths => app.autoDeployWatchPaths
  | .cleanup => app.autoDeployCleanupStaleDeployments
  | .deployWebhookToken => app.deployWebhookToken
  | .rest => (app.ownerId, app.domains, app.port)

end Setting

/-- Every setting that is not one of these is the same. -/
def SameBut (named : Setting → Prop) (app other : App) : Prop :=
  ∀ setting, ¬named setting → setting.read other = setting.read app

theorem SameBut.refl (named : Setting → Prop) (app : App) : SameBut named app app :=
  fun _ _ => rfl

variable {named : Setting → Prop}

theorem SameBut.trans {first second third : App} (earlier : SameBut named first second)
    (later : SameBut named second third) : SameBut named first third :=
  fun setting unnamed => (later setting unnamed).trans (earlier setting unnamed)

theorem SameBut.symm {app other : App} (same : SameBut named app other) : SameBut named other app :=
  fun setting unnamed => (same setting unnamed).symm

theorem SameBut.mono {more : Setting → Prop} {app other : App} (same : SameBut named app other)
    (grows : ∀ setting, named setting → more setting) : SameBut more app other :=
  fun setting unnamed => same setting fun isNamed => unnamed (grows setting isNamed)

/-- The request has an auto-deploy part with that value. -/
def UpdateServiceRequest.Deploys (request : UpdateServiceRequest)
    (given : AutoDeploySettingsRequest → Prop) : Prop :=
  ∃ autoDeploy, request.autoDeploy = some autoDeploy ∧ given autoDeploy

/-- What the body of an update says about the app itself. -/
def UpdateServiceRequest.Names (request : UpdateServiceRequest) : Setting → Prop
  | .githubUrl => request.githubUrl.isSome
  | .branch => request.branch.isSome
  | .envVar _ => request.envVars.isSome
  | .rolloutStrategy => request.rolloutStrategy.isSome
  | .autoDeployEnabled => request.Deploys fun autoDeploy => autoDeploy.enabled.isSome
  | .watchPaths => request.Deploys fun autoDeploy => autoDeploy.watchPaths.isSome
  | .cleanup => request.Deploys fun autoDeploy => autoDeploy.cleanupStaleDeployments.isSome
  | .deployWebhookToken =>
      request.Deploys fun autoDeploy => autoDeploy.regenerateWebhookToken = some true
  | .name | .rest => False

/-- An addition gives a project its repository and the variables that it does not have. -/
def ProjectAddition.Names (addition : ProjectAddition) (found : App) : Setting → Prop
  | .githubUrl => (nonEmpty addition.githubUrl).isSome ∧ (Text.trim found.githubUrl).isEmpty
  | .branch => (nonEmpty addition.githubUrl).isSome ∧ (Text.trim found.githubUrl).isEmpty ∧
      (nonEmpty addition.branch).isSome
  | .envVar key => (∃ requests, addition.envVars = some requests ∧
      ∃ request ∈ requests, Text.trim request.key = key) ∧
        ∀ envVar ∈ found.envVars, envVar.key ≠ key
  | _ => False

/-- What the request gives is there, and nothing else has changed. -/
structure Settled (request : UpdateServiceRequest) (found app : App) : Prop where
  githubUrl : ∀ url, request.githubUrl = some url → app.githubUrl = Text.trim url
  branch : ∀ branch, request.branch = some branch → app.branch = Text.trim branch
  envVars : ∀ vars, request.envVars = some vars →
    buildAppEnvVars (some vars) found.envVars = .ok app.envVars
  rolloutStrategy : ∀ text, request.rolloutStrategy = some text →
    parseRolloutStrategy text = some app.rolloutStrategy
  enabled : ∀ autoDeploy, request.autoDeploy = some autoDeploy → ∀ enabled,
    autoDeploy.enabled = some enabled → app.autoDeployEnabled = enabled
  watchPaths : ∀ autoDeploy, request.autoDeploy = some autoDeploy → ∀ paths,
    autoDeploy.watchPaths = some paths → normalizeWatchPaths paths = .ok app.autoDeployWatchPaths
  cleanup : ∀ autoDeploy, request.autoDeploy = some autoDeploy → ∀ cleanup,
    autoDeploy.cleanupStaleDeployments = some cleanup →
      app.autoDeployCleanupStaleDeployments = cleanup
  others : SameBut request.Names found app

theorem Settled.restamped {request : UpdateServiceRequest} {found app : App}
    (settled : Settled request found app) (services : List ContainerService) (now : Time) :
    Settled request found { app with services := services, updatedAt := now } := by
  refine ⟨settled.githubUrl, settled.branch, settled.envVars, settled.rolloutStrategy,
    settled.enabled, settled.watchPaths, settled.cleanup, fun setting unnamed => ?_⟩
  refine Eq.trans ?_ (settled.others setting unnamed)
  cases setting with
  | _ => rfl

section Updates

variable {request : UpdateServiceRequest} {found app : App} {allowed : Op → Prop}
  [Op.Allows allowed]

theorem names_without_deploys (setting : Setting)
    (named : ({ request with autoDeploy := none } : UpdateServiceRequest).Names setting) :
    request.Names setting := by
  cases setting with
  | autoDeployEnabled | watchPaths | cleanup | deployWebhookToken =>
      obtain ⟨autoDeploy, absurd, -⟩ := named
      cases absurd
  | _ => exact named

theorem update_auto_deploy_settles {autoDeploy : AutoDeploySettingsRequest}
    (asked : request.autoDeploy = some autoDeploy)
    (settled : Settled { request with autoDeploy := none } found app) :
    (updateAutoDeploy autoDeploy app).run.Under (fun _ _ => True) allowed
      (OnOk (Settled request found)) := by
  unfold updateAutoDeploy
  apply under_chain (checked_under fun watchPaths passed => passed)
  intro watchPaths passed
  have silent : ∀ {Value : Type} {given : Option Value} {names : Prop},
      (given.isSome → names) → ¬names → given = none := by
    intro Value given names isNamed unnamed
    exact Option.not_isSome_iff_eq_none.mp fun present => unnamed (isNamed present)
  have updated : ∀ token, (token = app.deployWebhookToken ∨
      request.Names .deployWebhookToken) → Settled request found { app with
        autoDeployEnabled := autoDeploy.enabled.getD app.autoDeployEnabled
        autoDeployWatchPaths := watchPaths
        autoDeployCleanupStaleDeployments :=
          autoDeploy.cleanupStaleDeployments.getD app.autoDeployCleanupStaleDeployments
        deployWebhookToken := token } := by
    intro token kept
    refine ⟨settled.githubUrl, settled.branch, settled.envVars, settled.rolloutStrategy,
      ?_, ?_, ?_, ?_⟩
    · intro other isOther enabled given
      cases asked.symm.trans isOther
      exact congrArg (·.getD app.autoDeployEnabled) given
    · intro other isOther paths given
      cases asked.symm.trans isOther
      rw [given] at passed
      exact passed
    · intro other isOther cleanup given
      cases asked.symm.trans isOther
      exact congrArg (·.getD app.autoDeployCleanupStaleDeployments) given
    · intro setting unnamed
      have before := settled.others setting fun named =>
        unnamed (names_without_deploys setting named)
      refine Eq.trans ?_ before
      cases setting with
      | autoDeployEnabled =>
          have absent := silent (fun given => ⟨autoDeploy, asked, given⟩) unnamed
          exact congrArg (·.getD app.autoDeployEnabled) absent
      | watchPaths =>
          have absent := silent (fun given => ⟨autoDeploy, asked, given⟩) unnamed
          rw [absent] at passed
          cases passed
          rfl
      | cleanup =>
          have absent := silent (fun given => ⟨autoDeploy, asked, given⟩) unnamed
          exact congrArg (·.getD app.autoDeployCleanupStaleDeployments) absent
      | deployWebhookToken => exact kept.resolve_right unnamed
      | _ => rfl
  dsimp only
  split
  · rename_i regenerate
    have named : request.Names .deployWebhookToken := ⟨autoDeploy, asked, regenerate⟩
    apply under_lift
    unfold ensureDeployWebhookToken
    split
    · apply under_bind.mpr
      apply under_op (looks (by trivial))
      intro token _
      exact under_pure.mpr (updated _ (Or.inr named))
    · exact under_pure.mpr (updated _ (Or.inr named))
  · exact under_return (updated _ (Or.inl rfl))

theorem update_app_settings_settles (request : UpdateServiceRequest) (app : App) :
    (updateAppSettings request app).run.Under (fun _ _ => True) allowed
      (OnOk (Settled request app)) := by
  unfold updateAppSettings
  apply under_chain (checked_under fun branch passed => passed)
  intro branch branchPassed
  apply under_chain (checked_under fun envVars passed => passed)
  intro envVars varsPassed
  apply under_chain (checked_under fun strategy passed => passed)
  intro strategy strategyPassed
  have settled : Settled { request with autoDeploy := none } app { app with
      githubUrl := (request.githubUrl.map Text.trim).getD app.githubUrl
      branch := branch
      envVars := envVars
      rolloutStrategy := strategy } := by
    constructor
    · intro url given
      have isUrl : request.githubUrl = some url := given
      rw [isUrl]
      rfl
    · intro asked given
      have isBranch : request.branch = some asked := given
      rw [isBranch] at branchPassed
      dsimp only at branchPassed
      split_ifs at branchPassed
      exact (Except.ok.inj branchPassed).symm
    · intro vars given
      have areVars : request.envVars = some vars := given
      rw [areVars] at varsPassed
      exact varsPassed
    · intro text given
      have isText : request.rolloutStrategy = some text := given
      rw [isText] at strategyPassed
      unfold resolveRolloutStrategy at strategyPassed
      cases parsed : parseRolloutStrategy text with
      | none => simp [parsed] at strategyPassed
      | some other => simpa [parsed] using strategyPassed
    · intro autoDeploy absurd
      cases absurd
    · intro autoDeploy absurd
      cases absurd
    · intro autoDeploy absurd
      cases absurd
    · intro setting unnamed
      cases setting with
      | githubUrl =>
          have absent : request.githubUrl = none := Option.not_isSome_iff_eq_none.mp unnamed
          change (request.githubUrl.map Text.trim).getD app.githubUrl = app.githubUrl
          rw [absent]
          rfl
      | branch =>
          have absent : request.branch = none := Option.not_isSome_iff_eq_none.mp unnamed
          rw [absent] at branchPassed
          cases branchPassed
          rfl
      | envVar key =>
          have absent : request.envVars = none := Option.not_isSome_iff_eq_none.mp unnamed
          rw [absent] at varsPassed
          cases varsPassed
          rfl
      | rolloutStrategy =>
          have absent : request.rolloutStrategy = none := Option.not_isSome_iff_eq_none.mp unnamed
          rw [absent] at strategyPassed
          cases strategyPassed
          rfl
      | _ => rfl
  dsimp only
  split
  · rename_i autoDeploy asked
    exact update_auto_deploy_settles asked settled
  · rename_i nothing
    have same : ({ request with autoDeploy := none } : UpdateServiceRequest) = request := by
      rw [← nothing]
    rw [same] at settled
    exact under_return settled

end Updates

section Additions

variable {addition : ProjectAddition} {app joined extended : App}

theorem add_repository_names (accepted : addRepository addition app = .ok joined) :
    SameBut (addition.Names app) app joined := by
  unfold addRepository at accepted
  split at accepted
  · cases accepted
    exact .refl _ _
  · rename_i githubUrl given
    dsimp only at accepted
    split_ifs at accepted with empty different
    · cases accepted
      intro setting unnamed
      have filled : (nonEmpty addition.githubUrl).isSome := Option.isSome_of_eq_some given
      cases setting with
      | githubUrl => exact absurd ⟨filled, empty⟩ unnamed
      | branch =>
          have absent : nonEmpty addition.branch = none := by
            by_contra present
            exact unnamed ⟨filled, empty, Option.isSome_iff_ne_none.mpr present⟩
          change (nonEmpty addition.branch).getD app.branch = app.branch
          rw [absent]
          rfl
      | _ => rfl
    · cases accepted
      exact .refl _ _

theorem add_repository_vars (accepted : addRepository addition app = .ok joined) :
    joined.envVars = app.envVars := by
  unfold addRepository at accepted
  split at accepted
  · cases accepted
    rfl
  · dsimp only at accepted
    split_ifs at accepted with empty different
    · cases accepted
      rfl
    · cases accepted
      rfl

/-- Variables of other keys, and of keys that are there, are left alone. -/
theorem added_vars_filtered {key : String} (added vars : List EnvVar)
    (left : (∃ envVar ∈ vars, envVar.key = key) ∨ ∀ envVar ∈ added, envVar.key ≠ key) :
    ((added.foldl (fun vars envVar =>
      if vars.any fun existing => existing.key = envVar.key then vars
      else vars ++ [envVar]) vars).filter fun envVar => envVar.key = key) =
        vars.filter fun envVar => envVar.key = key := by
  induction added generalizing vars with
  | nil => rfl
  | cons envVar added ih =>
      rw [List.foldl_cons]
      split_ifs with known
      · apply ih
        exact left.imp_right fun apart other member => apart other (List.mem_cons_of_mem _ member)
      · have different : envVar.key ≠ key := by
          rcases left with ⟨present, member, isKey⟩ | apart
          · intro same
            apply known
            rw [List.any_eq_true]
            exact ⟨present, member, decide_eq_true (isKey.trans same.symm)⟩
          · exact apart envVar List.mem_cons_self
        rw [ih (vars ++ [envVar]) ?_, List.filter_append]
        · simp [different]
        · rcases left with ⟨present, member, isKey⟩ | apart
          · exact Or.inl ⟨present, List.mem_append_left _ member, isKey⟩
          · exact Or.inr fun other later => apart other (List.mem_cons_of_mem _ later)

theorem built_env_var_key {requests : List EnvVarRequest} {existing added : List EnvVar}
    (accepted : buildAppEnvVars (some requests) existing = .ok added) {envVar : EnvVar}
    (member : envVar ∈ added) : ∃ request ∈ requests, Text.trim request.key = envVar.key := by
  unfold buildAppEnvVars buildVariables at accepted
  dsimp only at accepted
  cases pushed : requests.foldlM (pushVariable "shared env var" (existing.map envVarEntry)) [] with
  | error error =>
      rw [pushed] at accepted
      cases accepted
  | ok entries =>
      rw [pushed] at accepted
      cases accepted
      obtain ⟨entry, inEntries, rfl⟩ := List.mem_map.mp member
      obtain ⟨before, after, split⟩ := List.append_of_mem inEntries
      have each := (Pushes.pushed_of_foldlM (push_variable_appends _ _) pushed).1
      obtain ⟨request, asked, put⟩ := each before entry after split
      obtain ⟨-, -, value, -, same⟩ := push_variable_iff.mp put
      refine ⟨request, asked, ?_⟩
      rw [List.singleton_inj.mp (List.append_cancel_left same)]

theorem add_env_vars_names (accepted : addEnvVars addition joined = .ok extended)
    (vars : joined.envVars = app.envVars) : SameBut (addition.Names app) joined extended := by
  unfold addEnvVars at accepted
  split at accepted
  · cases accepted
    exact .refl _ _
  · rename_i requests given
    obtain ⟨added, built, done⟩ := Pushes.except_bind_iff.mp accepted
    cases done
    intro setting unnamed
    cases setting with
    | envVar key =>
        apply added_vars_filtered
        by_contra neither
        push Not at neither
        obtain ⟨absent, envVar, member, isKey⟩ := neither
        obtain ⟨request, asked, sameKey⟩ := built_env_var_key built member
        apply unnamed
        refine ⟨⟨requests, given, request, asked, sameKey.trans isKey⟩, ?_⟩
        rw [← vars]
        exact absent
    | _ => rfl

end Additions

end Containr.Api.Services
