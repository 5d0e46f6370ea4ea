import Containr.Effect.Rules
import Containr.Worker.Job

/-!
# Which calls the worker's helpers make

`Within names rows` bounds a helper: it reads no single deployment row, writes
only log lines and the service deployments in `rows`, and asks docker only for
the containers in `names`.
-/

namespace Containr

open Containr.Effect Containr.Effect.Program

/-- The containers a request may create, stop or remove. A start names only the
daemon's id, so it is allowed to whoever has a name at all. -/
def DockerCall.Concerns (names : String → Prop) : DockerCall → Prop
  | .createContainer name _ | .stopContainer name | .removeContainer name => names name
  | .startContainer _ => ∃ name, names name
  | .inspectContainer _ | .listContainers => True

/-- A question about the files of a checkout. -/
def External.AsksTree : External → Prop
  | .pathExists _ | .isDir _ | .isFile _ | .canonicalize _ => True
  | _ => False

def Op.Within (names : String → Prop) (rows : ServiceDeployment → Prop) : Op → Prop
  | .query (.deployment _) => False
  | .query _ => True
  | .write (.appendDeploymentLog _ _) => True
  | .write (.saveServiceDeployment row) => rows row
  | .write _ => False
  | .docker request => request.Concerns names
  | .sendJob _ | .receiveJob | .loadFlag _ | .storeFlag _ _ => False
  | .external _ | .newUuid | .utcNow | .iterationOrder _ | .hashOrder _ => True

/-- No container and no record at all. -/
abbrev Op.Quiet : Op → Prop := Op.Within (fun _ => False) fun _ => False

variable {names : String → Prop} {rows : ServiceDeployment → Prop}

theorem Op.Within.mono {moreNames : String → Prop} {moreRows : ServiceDeployment → Prop}
    (namesGrow : ∀ name, names name → moreNames name) (rowsGrow : ∀ row, rows row → moreRows row)
    (op : Op) (within : op.Within names rows) : op.Within moreNames moreRows := by
  cases op with
  | query wanted => cases wanted <;> exact within
  | write change =>
      cases change with
      | saveServiceDeployment row => exact rowsGrow row within
      | appendDeploymentLog id line => trivial
      | saveApp app => exact within
      | deleteApp id => exact within
      | saveDeployment deployment => exact within
      | deleteDeployment id => exact within
  | docker request =>
      cases request with
      | createContainer name body => exact namesGrow name within
      | stopContainer name => exact namesGrow name within
      | removeContainer name => exact namesGrow name within
      | startContainer serial =>
          obtain ⟨name, permitted⟩ := within
          exact ⟨name, namesGrow name permitted⟩
      | inspectContainer name => trivial
      | listContainers => trivial
  | external action => trivial
  | newUuid => trivial
  | utcNow => trivial
  | iterationOrder keys => trivial
  | hashOrder count => trivial
  | sendJob job => exact within
  | receiveJob => exact within
  | loadFlag flag => exact within
  | storeFlag flag value => exact within

theorem Op.Quiet.within (op : Op) (quiet : op.Quiet) : op.Within names rows :=
  Op.Within.mono (fun _ absurd => absurd.elim) (fun _ absurd => absurd.elim) op quiet

section Single

variable {allowed : Op → Prop}

theorem op_calls {op : Op} (permitted : allowed op) : op.call.Calls allowed :=
  @calls_perform Effects allowed op permitted

theorem under_op {op : Op} {expects : (op : Op) → op.Answer → Prop} {post : op.Answer → Prop}
    (permitted : allowed op) (answers : ∀ answer, expects op answer → post answer) :
    (@Under Effects op.Answer expects allowed op.call post) := by
  apply under_call.mpr
  exact ⟨permitted, fun answer expected => under_pure.mpr (answers answer expected)⟩

theorem ignore_calls {Error Value : Type} {program : ExceptT Error (Program Effects) Value}
    (calls : program.run.Calls allowed) : (ignore program).Calls allowed :=
  calls.bind fun _ => calls_pure _

theorem or_internal_calls {Value : Type} {program : Fallible Value}
    (calls : program.run.Calls allowed) : (orInternal program).run.Calls allowed :=
  calls.bind fun _ => calls_pure _

theorem ensure_calls {Error : Type} (condition : Bool) (error : Error) :
    (ensure condition error).run.Calls allowed := by
  unfold ensure
  split
  · exact calls_pure _
  · exact calls_pure _

end Single

theorem utc_now_quiet : utcNow.Calls Op.Quiet := op_calls trivial

theorem log_quiet (id : Uuid) (line : String) :
    (Store.appendDeploymentLog id line).run.Calls Op.Quiet := op_calls trivial

theorem external_quiet (action : External) : (external action).Calls Op.Quiet := op_calls trivial

theorem query_quiet {wanted : Query} (notRow : ∀ id, wanted ≠ .deployment id) :
    (Store.query wanted).run.Calls Op.Quiet := by
  apply op_calls
  cases wanted with
  | deployment id => exact absurd rfl (notRow id)
  | app id => trivial
  | apps => trivial
  | service id => trivial
  | servicesByApp appId => trivial
  | deploymentsByApp appId => trivial
  | serviceDeployments deploymentId => trivial
  | registriesByOwner ownerId => trivial

theorem with_service_deployments_calls {allowed : Op → Prop}
    (children : ∀ id, allowed (.query (.serviceDeployments id))) (rows : List Deployment) :
    (Store.withServiceDeployments rows).run.Calls allowed := by
  induction rows with
  | nil => exact calls_pure _
  | cons row rest ih =>
      apply Calls.run_bind
      · exact op_calls (children row.id)
      intro found
      exact Calls.run_return ih

theorem list_deployments_quiet (appId : Uuid) :
    (Store.listDeploymentsByApp appId).run.Calls Op.Quiet := by
  apply Calls.run_bind
  · exact query_quiet (by simp)
  intro rows
  exact with_service_deployments_calls (fun _ => trivial) rows

theorem get_app_quiet (id : Uuid) : (Store.getApp id).run.Calls Op.Quiet := by
  apply Calls.run_bind
  · exact query_quiet (by simp)
  intro row
  split
  · exact calls_pure _
  · exact Calls.run_return (query_quiet (by simp))

/-- Anything but the wait for a container. -/
def External.Prepares : External → Prop
  | .waitForHealthy _ _ => False
  | _ => True

section Preparing

variable {allowed : Op → Prop}
  (acts : ∀ action : External, action.Prepares → allowed (.external action))

include acts

theorem mount_source_calls (mountsRoot sharedRoot : String) (mount : ServiceMount) :
    (mountSource mountsRoot sharedRoot mount).run.Calls allowed := by
  unfold mountSource
  split
  · apply Calls.run_bind
    · exact ensure_calls _ _
    intro _
    apply Calls.run_lift_bind
    · exact op_calls (acts _ trivial)
    intro present
    split
    · apply Calls.run_return
      exact op_calls (acts _ trivial)
    · exact calls_pure _
  · apply Calls.run_bind
    · exact op_calls (acts _ trivial)
    intro source
    apply Calls.run_return
    exact op_calls (acts _ trivial)

theorem bind_mounts_calls (mountsRoot sharedRoot : String) (mounts : List ServiceMount) :
    (bindMounts mountsRoot sharedRoot mounts).run.Calls allowed := by
  induction mounts with
  | nil => exact calls_pure _
  | cons mount rest ih =>
      apply Calls.run_bind
      · exact mount_source_calls acts mountsRoot sharedRoot mount
      intro source
      exact Calls.run_return ih

theorem file_mounts_calls (dir : String) (index : Nat) (files : List ConfigFile) :
    (fileMounts dir index files).run.Calls allowed := by
  induction files generalizing index with
  | nil => exact calls_pure _
  | cons file rest ih =>
      apply Calls.run_bind
      · exact op_calls (acts _ trivial)
      intro _
      apply Calls.run_bind
      · exact op_calls (acts _ trivial)
      intro _
      exact Calls.run_return (ih (index + 1))

theorem config_file_mounts_calls (dir : String) (service : ContainerService) :
    (configFileMounts dir service).run.Calls allowed := by
  unfold configFileMounts
  split
  · exact calls_pure _
  · apply Calls.run_bind
    · exact op_calls (acts _ trivial)
    intro _
    apply Calls.run_bind
    · exact op_calls (acts _ trivial)
    intro _
    exact file_mounts_calls acts dir 0 service.files

theorem write_config_files_calls (mountsRoot : String) (service : ContainerService) :
    (writeConfigFiles mountsRoot service).run.Calls allowed := by
  apply Calls.run_bind
  · exact op_calls (acts _ trivial)
  intro dir
  apply Calls.run_lift_bind
  · exact op_calls (acts _ trivial)
  intro removed
  split
  · exact config_file_mounts_calls acts dir service
  · exact config_file_mounts_calls acts dir service
  · exact calls_pure _

theorem build_service_mounts_calls (workDir : String) (appId : Uuid) (service : ContainerService) :
    (buildServiceMounts workDir appId service).run.Calls allowed := by
  apply Calls.run_bind
  · exact bind_mounts_calls acts _ _ service.mounts
  intro mounts
  exact Calls.run_return (write_config_files_calls acts _ service)

omit acts

theorem resolve_registry_credentials_calls
    (reads : ∀ owner, allowed (.query (.registriesByOwner owner))) (runtime : Runtime) (ownerId : Uuid)
    (service : ContainerService) (image : String) :
    (resolveRegistryCredentials runtime ownerId service image).run.Calls allowed := by
  unfold resolveRegistryCredentials
  split
  · exact Calls.run_return (calls_pure _)
  · apply Calls.run_bind
    · exact op_calls (reads _)
    intro registries
    split
    · exact Calls.run_return (calls_pure _)
    · exact calls_pure _

end Preparing

theorem build_service_mounts_quiet (workDir : String) (appId : Uuid) (service : ContainerService) :
    (buildServiceMounts workDir appId service).run.Calls Op.Quiet :=
  build_service_mounts_calls (fun _ _ => trivial) workDir appId service

theorem resolve_registry_credentials_quiet (runtime : Runtime) (ownerId : Uuid)
    (service : ContainerService) (image : String) :
    (resolveRegistryCredentials runtime ownerId service image).run.Calls Op.Quiet :=
  resolve_registry_credentials_calls (fun _ => trivial) runtime ownerId service image

theorem docker_calls {request : DockerCall} (concerns : request.Concerns names) :
    (docker request).run.Calls (Op.Within names rows) := op_calls concerns

theorem external_calls (action : External) : (external action).Calls (Op.Within names rows) :=
  op_calls trivial

theorem stop_container_calls (id : String) :
    (stopContainer id).Calls (Op.Within (· = id) fun _ => False) :=
  ignore_calls (docker_calls rfl)

theorem remove_container_calls (id : String) :
    (removeContainer id).Calls (Op.Within (· = id) fun _ => False) :=
  (stop_container_calls id).bind fun _ => ignore_calls (docker_calls rfl)

section Seeding

variable {allowed : Op → Prop}

theorem copy_seed_calls (helper image target archive source : String)
    (removes : allowed (.docker (.removeContainer helper)))
    (creates : allowed (.docker (.createContainer helper (.seed image))))
    (acts : ∀ action, allowed (.external action)) :
    (copySeed helper image target archive source).run.Calls allowed := by
  have acting : ∀ action, (external action).Calls allowed := fun action => op_calls (acts action)
  have removing : (docker (.removeContainer helper)).run.Calls allowed := op_calls removes
  apply Calls.run_lift_bind
  · exact ignore_calls removing
  intro _
  apply Calls.run_bind
  · exact op_calls creates
  intro _
  apply Calls.run_lift_bind
  · exact acting _
  intro downloaded
  apply Calls.run_lift_bind
  · exact ignore_calls removing
  intro _
  split
  · apply Calls.run_lift_bind
    · exact acting _
    intro unpacked
    exact Calls.run_lift_return (ignore_calls (acting _))
  · exact Calls.run_lift_return (ignore_calls (acting _))
  · exact Calls.run_lift_return (ignore_calls (acting _))

theorem seed_bind_mount_calls (containerId image : String) (mount : DockerBindMount)
    (removes : allowed (.docker (.removeContainer (seedHelperName containerId))))
    (creates : allowed (.docker (.createContainer (seedHelperName containerId) (.seed image))))
    (acts : ∀ action, allowed (.external action)) :
    (seedBindMount containerId image mount).Calls allowed := by
  apply ignore_calls
  unfold trySeedBindMount
  dsimp only
  split
  · exact calls_pure _
  · apply Calls.run_bind
    · exact op_calls (acts _)
    intro isEmpty
    split
    · exact calls_pure _
    · split
      · exact calls_pure _
      · exact copy_seed_calls _ _ _ _ _ removes creates acts

end Seeding

/-- The names `create_container` uses: the container's own and its helper's. -/
def ownNames (containerId name : String) : Prop :=
  name = containerId ∨ name = seedHelperName containerId

theorem create_container_as_calls (body : ContainerBody) (config : DockerContainerConfig) :
    (createContainerAs body config).run.Calls (Op.Within (ownNames config.id) fun _ => False) := by
  unfold createContainerAs
  apply Calls.run_lift_bind
  · apply calls_for_all
    intro mount _
    exact seed_bind_mount_calls config.id config.image mount (Or.inr rfl) (Or.inr rfl) fun _ =>
      trivial
  · intro _
    apply Calls.run_bind
    · exact docker_calls (Or.inl rfl)
    intro container
    apply Calls.run_bind
    · exact calls_for_each _ fun network _ => external_calls _
    intro _
    apply Calls.run_return
    exact docker_calls ⟨config.id, Or.inl rfl⟩

theorem create_container_calls (config : DockerContainerConfig) :
    (createContainer config).run.Calls (Op.Within (ownNames config.id) fun _ => False) :=
  create_container_as_calls (.service config) config

namespace Worker

theorem remove_dir_all_quiet (path : String) : (removeDirAll path).Calls Op.Quiet :=
  (external_quiet _).bind fun _ => calls_pure _

section Checkout

variable {allowed : Op → Prop} {token : Option String} {repo : String}

theorem git_calls {directory : Option String} {arguments : List String}
    (permitted : allowed (.external (.git token directory arguments))) :
    (git token directory arguments).run.Calls allowed := op_calls permitted

theorem fetch_commit_calls (sha : String)
    (fetches : ∀ arguments, allowed (.external (.git token (some repo) ("fetch" :: arguments)))) :
    (fetchCommit token repo sha).run.Calls allowed := by
  unfold fetchCommit
  apply Calls.run_bind
  · exact ensure_calls _ _
  intro _
  exact Calls.run_return (git_calls (fetches _))

theorem checkout_commit_calls (sha : String) (works : ∀ command ∈ ["fetch", "rev-parse", "checkout"],
      ∀ arguments, allowed (.external (.git token (some repo) (command :: arguments)))) :
    (checkoutCommit token repo sha).run.Calls allowed := by
  have checkout : ∀ target, (do
      let _ ← git token (some repo) ["checkout", "--force", "--detach", target]
      return () : Fallible Unit).run.Calls allowed := by
    intro target
    apply Calls.run_return
    exact git_calls (works "checkout" (by simp) _)
  unfold checkoutCommit
  apply Calls.run_bind
  · exact git_calls (works "rev-parse" (by simp) _)
  intro head
  split
  · exact calls_pure _
  · apply Calls.run_lift_bind
    · exact git_calls (works "rev-parse" (by simp) _)
    intro verified
    split
    · exact checkout _
    · apply Calls.run_bind
      · exact fetch_commit_calls sha (works "fetch" (by simp))
      intro target
      exact checkout target

theorem clone_from_calls (job : DeploymentJob) (sourceUrl : String)
    (clones : allowed (.external (.git (gitToken job.source) none ["clone", "--depth", "1",
      "--single-branch", "--branch", job.branch, "--", sourceUrl, repo])))
    (works : ∀ command ∈ ["fetch", "rev-parse", "checkout"], ∀ arguments,
      allowed (.external (.git (gitToken job.source) (some repo) (command :: arguments)))) :
    (cloneFrom job repo sourceUrl).run.Calls allowed := by
  unfold cloneFrom
  apply Calls.run_lift_bind
  · exact git_calls clones
  intro cloned
  split
  · exact calls_pure _
  · apply Calls.run_lift_bind
    · unfold checkoutRequested
      split
      · exact ignore_calls (checkout_commit_calls _ works)
      · exact calls_pure _
    intro _
    exact calls_pure _

end Checkout

variable (runtime : Runtime) (job : DeploymentJob) (plan : Plan) (service : ContainerService)
  (deployment : Deployment) (app : App) (image : String) (rollout : Rollout) (replica : Nat)

theorem clone_from_quiet (repoPath sourceUrl : String) :
    (cloneFrom job repoPath sourceUrl).run.Calls Op.Quiet :=
  clone_from_calls job sourceUrl trivial fun _ _ _ => trivial

theorem clone_repo_quiet : (cloneRepo runtime job).run.Calls Op.Quiet := by
  unfold cloneRepo
  apply Calls.run_lift_bind
  · exact remove_dir_all_quiet _
  intro _
  split
  · exact calls_pure _
  · exact clone_from_quiet job _ _
  · split
    · exact calls_pure _
    · exact clone_from_quiet job _ _

section BuildConfig

variable {allowed : Op → Prop}
  (asks : ∀ action : External, action.AsksTree → allowed (.external action))

include asks

theorem service_dockerfile_calls (contextRel contextPath : String) (service : ContainerService) :
    (serviceDockerfile contextRel contextPath service).run.Calls allowed := by
  unfold serviceDockerfile
  split
  · exact calls_pure _
  · apply Calls.run_bind
    · exact calls_pure _
    intro dockerfile
    apply Calls.run_lift_bind
    · exact op_calls (asks _ trivial)
    intro present
    exact Calls.run_return (ensure_calls _ _)

theorem resolve_service_build_config_calls (repoPath : String) (service : ContainerService) :
    (resolveServiceBuildConfig repoPath service).run.Calls allowed := by
  unfold resolveServiceBuildConfig
  apply Calls.run_lift_bind
  · exact op_calls (asks _ trivial)
  intro present
  apply Calls.run_bind
  · exact ensure_calls _ _
  intro _
  apply Calls.run_lift_bind
  · exact op_calls (asks _ trivial)
  intro isDir
  apply Calls.run_bind
  · exact ensure_calls _ _
  intro _
  apply Calls.run_bind
  · exact op_calls (asks _ trivial)
  intro repoRoot
  apply Calls.run_bind
  · exact op_calls (asks _ trivial)
  intro contextPath
  apply Calls.run_bind
  · exact ensure_calls _ _
  intro _
  exact Calls.run_return (service_dockerfile_calls asks _ _ service)

theorem configured_dockerfile_calls (contextPath : String) (service : ContainerService) :
    (configuredDockerfile contextPath service).Calls allowed := by
  unfold configuredDockerfile
  split
  · exact calls_pure _
  · apply Calls.bind
    · exact op_calls (asks _ trivial)
    intro present
    exact calls_pure _

theorem resolve_local_build_config_calls (sourceRoot : String) (service : ContainerService) :
    (resolveLocalBuildConfig sourceRoot service).run.Calls allowed := by
  unfold resolveLocalBuildConfig
  apply Calls.run_bind
  · exact op_calls (asks _ trivial)
  intro contextPath
  apply Calls.run_lift_bind
  · exact configured_dockerfile_calls asks contextPath service
  intro configured
  split
  · exact calls_pure _
  · apply Calls.run_bind
    · apply Calls.run_lift_bind
      · exact op_calls (asks _ trivial)
      intro present
      exact Calls.run_return (ensure_calls _ _)
    intro dockerfile
    exact calls_pure _

theorem build_config_calls (repoPath : Option String) (isLocalTarget : Bool)
    (service : ContainerService) :
    (buildConfig repoPath isLocalTarget service).run.Calls allowed := by
  unfold buildConfig
  split
  · exact calls_pure _
  · split
    · exact resolve_local_build_config_calls asks _ service
    · exact resolve_service_build_config_calls asks _ service

end BuildConfig

theorem previous_service_image_quiet (appId current : Uuid) (service : ContainerService) :
    (previousServiceImage appId current service).run.Calls Op.Quiet := by
  unfold previousServiceImage
  apply Calls.run_bind
  · exact list_deployments_quiet appId
  intro deployments
  dsimp only
  split
  · exact calls_pure _
  · exact calls_pure _

theorem build_from_source_quiet (deployment : Deployment) (repoPath : Option String)
    (commitSha : String) (isLocalTarget : Bool) (built : Built) (service : ContainerService) :
    (buildFromSource app deployment repoPath commitSha isLocalTarget built service).run.Calls
      Op.Quiet := by
  unfold buildFromSource
  apply Calls.run_bind
  · exact build_config_calls (fun _ _ => trivial) repoPath isLocalTarget service
  intro config
  dsimp only
  split
  · exact calls_pure _
  · apply Calls.run_lift_bind
    · exact ignore_calls (log_quiet _ _)
    intro _
    apply Calls.run_lift_bind
    · exact external_quiet _
    intro outcome
    apply Calls.run_lift_bind
    · exact calls_for_all _ fun line _ => ignore_calls (log_quiet _ _)
    intro _
    exact Calls.run_return (calls_pure _)

theorem build_service_image_quiet (deployment : Deployment) (repoPath : Option String)
    (commitSha : String) (target : Option Uuid) (built : Built) (service : ContainerService) :
    (buildServiceImage app deployment repoPath commitSha target built service).run.Calls
      Op.Quiet := by
  unfold buildServiceImage
  dsimp only
  split
  · split
    · exact Calls.run_return (previous_service_image_quiet _ _ service)
    · exact calls_pure _
  · split
    · exact calls_pure _
    · exact build_from_source_quiet app deployment repoPath commitSha _ built service

theorem build_service_images_quiet (deployment : Deployment) (repoPath : Option String)
    (commitSha : String) (target : Option Uuid) :
    (buildServiceImages app deployment repoPath commitSha target).run.Calls Op.Quiet := by
  unfold buildServiceImages
  apply Calls.run_bind
  · exact ensure_calls _ _
  intro _
  apply Calls.run_bind
  · apply calls_foldlM
    intro built service _
    exact build_service_image_quiet app deployment repoPath commitSha target built service
  intro built
  exact calls_pure _

def Plan.touchesReplica (plan : Plan) (service : ContainerService) (replica : Nat)
    (name : String) : Prop :=
  (replacedFirst plan.strategy service replica = true ∧
      oldContainer plan.previous service.id replica = some name) ∨
    ownNames (plan.name service replica) name

/-- The containers the rollout of `sorted` may create, stop or remove. -/
def Plan.touches (plan : Plan) (sorted : List ContainerService) (name : String) : Prop :=
  ∃ service ∈ sorted, service.isCronJob = false ∧
    ∃ replica < service.replicas, plan.touchesReplica service replica name

def Plan.owns (plan : Plan) (row : ServiceDeployment) : Prop :=
  row.deploymentId = plan.deployment.id

theorem old_container_recorded {previous : List Deployment} {service : Uuid} {replica : Nat}
    {old : String} (found : oldContainer previous service replica = some old) :
    old ∈ allOldContainers previous := by
  unfold oldContainer at found
  obtain ⟨entry, present, rfl⟩ := Option.map_eq_some_iff.mp found
  rw [allOldContainers, List.mem_dedup]
  exact List.mem_map_of_mem (lookup_eq_some_mem present).1

theorem remove_old_calls : (plan.removeOld service replica).Calls
      (Op.Within (fun name => replacedFirst plan.strategy service replica = true ∧
        oldContainer plan.previous service.id replica = some name) fun _ => False) := by
  unfold Plan.removeOld
  split
  · rename_i first
    split
    · rename_i old found
      have grow : ∀ name, name = old → replacedFirst plan.strategy service replica = true ∧
          oldContainer plan.previous service.id replica = some name := by
        intro name isOld
        rw [isOld]
        exact ⟨first, found⟩
      apply Calls.bind
      · exact (stop_container_calls old).mono (Op.Within.mono grow fun _ absurd => absurd)
      intro _
      exact (remove_container_calls old).mono (Op.Within.mono grow fun _ absurd => absurd)
    · exact calls_pure _
  · exact calls_pure _

theorem pull_service_image_quiet : (plan.pullServiceImage service image).run.Calls Op.Quiet := by
  unfold Plan.pullServiceImage
  split
  · apply Calls.run_bind
    · exact resolve_registry_credentials_quiet _ _ service image
    intro credentials
    apply Calls.run_lift_bind
    · exact ignore_calls (log_quiet _ _)
    intro _
    exact external_quiet _
  · exact calls_pure _

theorem prepare_replica_quiet : (plan.prepareReplica service image).run.Calls Op.Quiet := by
  unfold Plan.prepareReplica
  apply Calls.run_bind
  · exact pull_service_image_quiet plan service image
  intro _
  exact build_service_mounts_quiet _ _ service

theorem await_health_quiet (container : String) :
    (Plan.awaitHealth service replica container).run.Calls Op.Quiet := by
  unfold Plan.awaitHealth
  split
  · apply Calls.run_bind
    · exact external_quiet _
    intro healthy
    exact ensure_calls _ _
  · exact calls_pure _

theorem start_replica_calls (config : DockerContainerConfig) :
    (Plan.startReplica service replica config).run.Calls
      (Op.Within (ownNames config.id) fun _ => False) := by
  unfold Plan.startReplica
  apply Calls.run_bind
  · exact create_container_calls config
  intro container
  exact Calls.run_return ((await_health_quiet service replica config.id).mono Op.Quiet.within)

variable {names : String → Prop} {rows : ServiceDeployment → Prop}

theorem save_record_calls {row : ServiceDeployment} (permitted : rows row) :
    (Plan.saveServiceDeploymentBestEffort row).Calls (Op.Within names rows) :=
  ignore_calls (op_calls permitted)

theorem deploy_replica_calls : (plan.deployReplica service image rollout replica).Calls
      (Op.Within (plan.touchesReplica service replica) plan.owns) := by
  unfold Plan.deployReplica
  apply Calls.bind
  · exact (remove_old_calls plan service replica).mono
      (Op.Within.mono (fun _ => Or.inl) fun _ absurd => absurd.elim)
  intro _
  apply Calls.bind
  · exact (prepare_replica_quiet plan service image).mono Op.Quiet.within
  intro prepared
  split
  · exact calls_pure _
  · apply Calls.bind
    · exact (start_replica_calls service replica _).mono
        (Op.Within.mono (fun _ => Or.inr) fun _ absurd => absurd.elim)
    intro started
    split
    · exact calls_pure _
    · apply Calls.bind
      · exact op_calls trivial
      intro id
      apply Calls.bind
      · exact op_calls trivial
      intro createdAt
      apply Calls.bind
      · exact op_calls trivial
      intro startedAt
      apply Calls.bind
      · exact save_record_calls rfl
      intro _
      exact calls_pure _

theorem register_cron_job_calls : (plan.registerCronJob service image rollout).Calls
      (Op.Within (fun _ => False) plan.owns) := by
  unfold Plan.registerCronJob
  apply Calls.bind
  · exact (ignore_calls (log_quiet _ _)).mono Op.Quiet.within
  intro _
  apply Calls.bind
  · exact op_calls trivial
  intro id
  apply Calls.bind
  · exact op_calls trivial
  intro createdAt
  apply Calls.bind
  · exact save_record_calls rfl
  intro _
  exact calls_pure _

theorem deploy_service_calls (service : ContainerService) :
    (plan.deployService rollout service).Calls
      (Op.Within (plan.touches [service]) plan.owns) := by
  unfold Plan.deployService
  split
  · exact calls_pure _
  · split
    · exact (register_cron_job_calls plan service _ rollout).mono
        (Op.Within.mono (fun _ absurd => absurd.elim) fun _ owned => owned)
    · rename_i notCron
      have replicated : service.isCronJob = false := by simpa using notCron
      apply calls_iterate
      intro acc replica inRange
      have grow : ∀ name, plan.touchesReplica service replica name →
          plan.touches [service] name := by
        intro name touched
        exact ⟨service, List.mem_singleton_self service, replicated, replica,
          List.mem_range.mp inRange, touched⟩
      exact (deploy_replica_calls plan service _ acc replica).mono
        (Op.Within.mono grow fun _ owned => owned)

theorem rollout_services_calls (sorted : List ContainerService) :
    (plan.rolloutServices sorted).Calls (Op.Within (plan.touches sorted) plan.owns) := by
  unfold Plan.rolloutServices
  apply calls_iterate
  intro acc service member
  have grow : ∀ name, plan.touches [service] name → plan.touches sorted name := by
    intro name touched
    obtain ⟨other, same, rest⟩ := touched
    rw [List.mem_singleton] at same
    exact ⟨service, member, same ▸ rest⟩
  exact (deploy_service_calls plan acc service).mono (Op.Within.mono grow fun _ owned => owned)

theorem sort_services_quiet (services : List ContainerService) :
    (sortServices services).run.Calls Op.Quiet := by
  unfold sortServices
  exact Calls.run_lift_return (op_calls trivial)

theorem get_previous_running_quiet (appId current : Uuid) :
    (getPreviousRunningDeployments appId current).run.Calls Op.Quiet := by
  unfold getPreviousRunningDeployments
  exact Calls.run_return (list_deployments_quiet appId)

theorem undo_calls (permitted : ∀ row ∈ rollout.serviceDeployments, ∀ finishedAt,
      rows { row with status := .failed, finishedAt := some finishedAt }) :
    (Plan.undo rollout).Calls (Op.Within (· ∈ rollout.newContainerIds) rows) := by
  unfold Plan.undo
  apply Calls.bind
  · exact op_calls trivial
  intro created
  apply Calls.bind
  · apply calls_for_all
    intro name member
    have grow : ∀ other, other = name → other ∈ rollout.newContainerIds := by
      rintro other rfl
      exact created.property.mem_iff.mp member
    exact (remove_container_calls name).mono (Op.Within.mono grow fun _ absurd => absurd.elim)
  intro _
  apply Calls.bind
  · exact op_calls trivial
  intro finishedAt
  apply calls_for_all
  intro row member
  exact ignore_calls (op_calls (permitted row member finishedAt))

theorem undo_tracked :
    (Plan.undo rollout).Calls (Op.Within (· ∈ rollout.newContainerIds) fun _ => True) :=
  undo_calls rollout fun _ _ _ => trivial

theorem sweep_old_calls (previous : List Deployment) (created : List String) :
    (sweepOld previous created).Calls
      (Op.Within (fun name => name ∈ allOldContainers previous ∧ name ∉ created)
        fun _ => False) := by
  unfold sweepOld
  apply Calls.bind
  · exact op_calls trivial
  intro old
  apply calls_for_all
  intro name member
  split
  · exact calls_pure _
  · rename_i notCreated
    have grow : ∀ other, other = name →
        other ∈ allOldContainers previous ∧ other ∉ created := by
      rintro other rfl
      exact ⟨old.property.mem_iff.mp member, notCreated⟩
    apply Calls.bind
    · exact (stop_container_calls name).mono (Op.Within.mono grow fun _ absurd => absurd.elim)
    intro _
    exact (remove_container_calls name).mono (Op.Within.mono grow fun _ absurd => absurd.elim)

theorem send_proxy_refresh_quiet (appId : Uuid) :
    (sendProxyRefresh runtime appId).Calls Op.Quiet := by
  unfold sendProxyRefresh
  split
  · exact (external_quiet _).bind fun _ => calls_pure _
  · exact calls_pure _

def ByWorker : Op → Prop
  | .write (.deleteApp _) | .write (.deleteDeployment _) | .sendJob _ | .receiveJob => False
  | _ => True

def InJob : Op → Prop
  | .loadFlag _ | .storeFlag _ _ => False
  | op => ByWorker op

theorem by_worker_of_in_job (op : Op) (inJob : InJob op) : ByWorker op := by
  cases op with
  | loadFlag flag => trivial
  | storeFlag flag value => trivial
  | _ => exact inJob

/-- What a job calls beside the restore of a rollback: no app is saved. -/
def Tending : Op → Prop
  | .write (.saveApp _) => False
  | op => InJob op

theorem in_job_of_tending (op : Op) (tending : Tending op) : InJob op := by
  cases op with
  | write change =>
      cases change with
      | saveApp app => exact tending.elim
      | _ => exact tending
  | _ => exact tending

class Tends (allowed : Op → Prop) : Prop where
  tending : ∀ op, Tending op → allowed op

instance : Tends InJob := ⟨in_job_of_tending⟩

instance : Tends Tending := ⟨fun _ tending => tending⟩

theorem tends {allowed : Op → Prop} [tends : Tends allowed] {op : Op} (tending : Tending op) :
    allowed op := tends.tending op tending

theorem tends_of_within {allowed : Op → Prop} [Tends allowed] (op : Op)
    (within : op.Within names rows) : allowed op := by
  apply tends
  cases op with
  | write change =>
      cases change with
      | saveApp app => exact within
      | deleteApp id => exact within
      | deleteDeployment id => exact within
      | _ => trivial
  | sendJob job => exact within
  | receiveJob => exact within
  | loadFlag flag => exact within
  | storeFlag flag value => exact within
  | _ => trivial

theorem in_job_of_within (op : Op) (within : op.Within names rows) : InJob op :=
  tends_of_within op within

theorem by_worker_of_within (op : Op) (within : op.Within names rows) : ByWorker op :=
  by_worker_of_in_job op (in_job_of_within op within)

variable {allowed : Op → Prop} [Tends allowed]

theorem get_deployment_in_job (id : Uuid) :
    (Store.getDeployment id).run.Calls allowed := by
  unfold Store.getDeployment
  apply Calls.run_bind
  · exact op_calls (tends (by trivial))
  intro row
  split
  · exact calls_pure _
  · apply Calls.run_return
    exact op_calls (tends (by trivial))

theorem update_status_in_job (status : DeploymentStatus) :
    (updateStatus deployment status).run.Calls allowed := by
  unfold updateStatus
  apply Calls.run_lift_bind
  · exact op_calls (tends (by trivial))
  intro now
  apply Calls.run_lift_bind
  · exact ignore_calls (op_calls (tends (by trivial)))
  intro _
  exact op_calls (tends (by trivial))

theorem should_continue_in_job (id : Uuid) (message : String) :
    (shouldContinueDeployment id message).run.Calls allowed := by
  unfold shouldContinueDeployment
  apply Calls.run_bind
  · exact get_deployment_in_job id
  intro found
  split
  · exact calls_pure _
  · split
    · exact Calls.run_lift_return (ignore_calls (op_calls (tends (by trivial))))
    · exact calls_pure _

theorem restore_calls {allowed : Op → Prop} (snapshot : App) (isRollback : Bool)
    (fetches : ∀ id, allowed (.query (.app id)) ∧ allowed (.query (.servicesByApp id)))
    (clock : allowed .utcNow) (saves : ∀ app, allowed (.write (.saveApp app))) :
    (restoreIfRollback snapshot isRollback).run.Calls allowed := by
  unfold restoreIfRollback
  split
  · unfold restoreAppServices Store.getApp
    apply Calls.run_bind
    · apply Calls.run_bind (op_calls (fetches _).1)
      intro row
      split
      · exact calls_pure _
      · apply Calls.run_return
        exact op_calls (fetches _).2
    intro current
    split
    · apply Calls.run_lift_bind (op_calls clock)
      intro now
      exact op_calls (saves _)
    · exact calls_pure _
  · exact calls_pure _

theorem mark_stopped_in_job : (markDeploymentStopped deployment).run.Calls allowed := by
  unfold markDeploymentStopped
  apply Calls.run_lift_bind
  · exact op_calls (tends (by trivial))
  intro finishedAt
  apply Calls.run_bind
  · exact get_deployment_in_job deployment.id
  intro loaded
  exact op_calls (tends (by trivial))

theorem remove_checkout_quiet (repoPath : Option String) :
    (removeCheckout repoPath).Calls Op.Quiet := by
  unfold removeCheckout
  split
  · exact remove_dir_all_quiet _
  · exact calls_pure _

theorem cleanup_quiet : (cleanupUploadedSource runtime job).Calls Op.Quiet := by
  unfold cleanupUploadedSource
  split
  · split
    · exact remove_dir_all_quiet _
    · exact calls_pure _
  · exact calls_pure _
  · exact calls_pure _

theorem source_images_in_job : (sourceImages runtime job deployment app).run.Calls allowed := by
  unfold sourceImages
  apply Calls.run_bind
  · unfold checkoutSource
    split
    · exact calls_pure _
    · apply Calls.run_bind
      · exact update_status_in_job deployment .cloning
      intro _
      exact Calls.run_return ((clone_repo_quiet runtime job).mono tends_of_within)
  intro repoPath
  have removes : (removeCheckout repoPath).Calls allowed :=
    (remove_checkout_quiet repoPath).mono tends_of_within
  apply Calls.run_bind
  · exact should_continue_in_job _ _
  intro continues
  split
  · exact Calls.run_lift_return (removes)
  · apply Calls.run_bind
    · exact update_status_in_job deployment .building
    intro _
    apply Calls.run_bind
    · exact (build_service_images_quiet _ _ _ _ _).mono tends_of_within
    intro images
    apply Calls.run_lift_bind
    · exact removes
    intro _
    apply Calls.run_bind
    · exact should_continue_in_job _ _
    intro continues
    split
    · exact calls_pure _
    · exact calls_pure _

theorem load_rollback_source_in_job : (loadRollbackSource job).run.Calls allowed := by
  unfold loadRollbackSource
  split
  · apply Calls.run_bind
    · exact get_deployment_in_job _
    intro found
    split
    · exact Calls.run_return (ensure_calls _ _)
    · exact calls_pure _
  · exact calls_pure _

theorem job_images_in_job (source : Option Deployment) :
    (jobImages runtime job deployment app source).run.Calls allowed := by
  cases source with
  | none => exact source_images_in_job runtime job deployment app
  | some source =>
      unfold jobImages
      apply Calls.run_lift_bind
      · exact ignore_calls (op_calls (tends (by trivial)))
      intro _
      exact Calls.run_return (calls_pure _)

section Jobs

variable {rule : Rule Effects} (tending : ∀ calls op, Tending op → rule calls op)
  (restores : ∀ snapshot isRollback, Obeys rule (restoreIfRollback snapshot isRollback).run)

include tending restores

theorem finish_rollout_obeys (plan : Plan) (rollout : Rollout) (isRollback : Bool) :
    Obeys rule (finishRollout plan rollout isRollback).run := by
  unfold finishRollout
  apply Obeys.run_bind
  · exact restores plan.app isRollback
  intro _
  refine Calls.obeys ?_ tending
  apply Calls.run_bind
  · exact op_calls trivial
  intro existing
  apply Calls.run_lift_bind
  · exact op_calls trivial
  intro startedAt
  apply Calls.run_lift_bind
  · exact op_calls trivial
  intro finishedAt
  apply Calls.run_bind
  · exact op_calls trivial
  intro _
  apply Calls.run_lift_bind
  · exact (send_proxy_refresh_quiet _ _).mono tends_of_within
  intro _
  apply Calls.run_lift_bind
  · exact (sweep_old_calls _ _).mono tends_of_within
  intro _
  apply calls_for_each
  intro previous _
  exact mark_stopped_in_job previous

theorem deploy_services_obeys (runtime : Runtime) (app : App) (deployment : Deployment)
    (networkName : String) (images : ServiceImages) (sharedEnv : List (String × String))
    (strategy : RolloutStrategy) (isRollback : Bool) :
    Obeys rule (deployServices runtime app deployment networkName images sharedEnv strategy
      isRollback).run := by
  unfold deployServices
  apply Obeys.run_bind
  · exact ((sort_services_quiet _).mono tends_of_within).obeys tending
  intro sorted
  apply Obeys.run_bind
  · exact ((get_previous_running_quiet _ _).mono tends_of_within).obeys tending
  intro previous
  apply Obeys.run_lift_bind
  · exact ((rollout_services_calls _ sorted).mono tends_of_within).obeys tending
  rintro ⟨outcome, rollout⟩
  dsimp only
  split
  · refine Calls.obeys ?_ tending
    apply Calls.run_lift_bind
    · have undone := undo_tracked rollout
      exact undone.mono tends_of_within
    intro _
    exact calls_pure _
  · exact finish_rollout_obeys tending restores _ rollout isRollback

theorem start_deployment_obeys (runtime : Runtime) (job : DeploymentJob)
    (deployment : Deployment) (app : App) (images : ServiceImages) (isRollback : Bool) :
    Obeys rule (startDeployment runtime job deployment app images isRollback).run := by
  unfold startDeployment
  apply Obeys.run_bind
  · exact (update_status_in_job deployment .starting).obeys tending
  intro _
  apply Obeys.run_bind
  · exact (should_continue_in_job _ _).obeys tending
  intro continues
  split
  · exact (calls_run_pure _).obeys tending
  · apply Obeys.run_bind
    · exact Calls.obeys (op_calls trivial) tending
    intro _
    exact deploy_services_obeys tending restores _ _ _ _ _ _ _ _

theorem process_job_obeys (runtime : Runtime) (job : DeploymentJob) :
    Obeys rule (processJob runtime job).run := by
  unfold processJob
  apply Obeys.run_bind
  · exact (get_deployment_in_job _).obeys tending
  intro found
  split
  · apply Obeys.run_bind
    · exact (ensure_calls _ _).obeys tending
    intro _
    apply Obeys.run_bind
    · exact (should_continue_in_job _ _).obeys tending
    intro continues
    split
    · exact (calls_run_pure _).obeys tending
    · apply Obeys.run_bind
      · exact ((get_app_quiet _).mono tends_of_within).obeys tending
      intro currentApp
      split
      · apply Obeys.run_bind
        · exact (load_rollback_source_in_job job).obeys tending
        intro source
        apply Obeys.run_bind
        · exact (job_images_in_job runtime job _ _ source).obeys tending
        intro images
        split
        · exact start_deployment_obeys tending restores runtime job _ _ _ _
        · exact (calls_run_pure _).obeys tending
      · exact (calls_run_throw _).obeys tending
  · exact (calls_run_throw _).obeys tending

end Jobs

theorem restores_in_job (snapshot : App) (isRollback : Bool) :
    Obeys (fun _ op => InJob op) (restoreIfRollback snapshot isRollback).run :=
  (restore_calls snapshot isRollback (fun _ => ⟨trivial, trivial⟩) trivial fun _ => trivial).obeys
    fun _ _ inJob => inJob

theorem deploy_services_in_job (deployment : Deployment) (networkName : String)
    (images : ServiceImages) (sharedEnv : List (String × String)) (strategy : RolloutStrategy)
    (isRollback : Bool) :
    (deployServices runtime app deployment networkName images sharedEnv strategy
      isRollback).run.Calls InJob :=
  calls_of_always (deploy_services_obeys (fun _ => in_job_of_tending) restores_in_job runtime app
    deployment networkName images sharedEnv strategy isRollback [])

theorem process_job_in_job : (processJob runtime job).run.Calls InJob :=
  calls_of_always (process_job_obeys (fun _ => in_job_of_tending) restores_in_job runtime job [])

theorem mark_failed_in_job (id : Uuid) (message : String) :
    (markFailed id message).Calls allowed := by
  unfold markFailed
  apply Calls.bind
  · exact get_deployment_in_job id
  intro result
  split
  · split
    · exact calls_pure _
    · apply Calls.bind
      · exact op_calls (tends (by trivial))
      intro now
      apply Calls.bind
      · exact ignore_calls (op_calls (tends (by trivial)))
      intro _
      exact ignore_calls (op_calls (tends (by trivial)))
  · exact calls_pure _
  · exact calls_pure _

theorem handle_job_by_worker : (handleJob runtime job).Calls ByWorker := by
  unfold handleJob
  apply Calls.bind
  · exact (process_job_in_job runtime job).mono by_worker_of_in_job
  intro result
  apply Calls.bind
  · exact (cleanup_quiet runtime job).mono by_worker_of_within
  intro _
  apply Calls.bind
  · exact op_calls trivial
  intro _
  split
  · exact calls_pure _
  · exact (mark_failed_in_job _ _).mono by_worker_of_in_job

end Worker

end Containr
