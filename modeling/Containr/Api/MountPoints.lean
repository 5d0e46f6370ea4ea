import Containr.Api.HostMounts
import Containr.ConfigFiles
import Containr.Spelling

/-!
# Mount points of a service

The targets of the mounts are compared as texts, the paths of the config files too, and so is
a file with the volumes it must stay out of. That does what it is for as long as every path
is spelled plainly. Nothing asks whether something else lies inside a config file.
-/

namespace Containr.Api

open Containr.Effect Containr.Effect.Program Containr.Pushes Containr.Api.Services

/-- Repeated and trailing separators and `.` do not make another path. -/
structure MountPointsApart (service : ContainerService) : Prop where
  targets : (service.mounts.map fun mount => Path.components mount.target).Nodup
  paths : (service.files.map fun file => Path.components file.path).Nodup
  outside : ∀ file ∈ service.files, ∀ mount ∈ service.mounts,
    Path.startsWith file.path mount.target = false

def ConfigFilesShown (workDir : String) (appId : Uuid) (service : ContainerService) : Prop :=
  ∀ before binds after,
    Runs Filing (Containr.buildServiceMounts workDir appId service).run before (.ok binds) after →
      ∀ file ∈ service.files, Shown binds after file

def requestedTargets (request : ServiceRequest) : List String :=
  (request.mounts.getD []).map fun mount => Text.trim mount.target

def storedFiles (existing : List ContainerService) (name : String) : List ConfigFile :=
  ((lookup (·.name) name existing.reverse).map (·.files)).getD []

def requestedPaths (existing : List ContainerService) (request : ServiceRequest) : List String :=
  (request.files.getD ((storedFiles existing (Text.trim request.name)).map configFileRequest)).map
    fun file => Text.trim file.path

def plainMount (target : String) : ServiceMount := ⟨"", Path.plainSpelling target, false, none, false⟩

/-- The checks pass on the plain spellings too, and no target and no other file lies at,
above or inside the path of a file. -/
structure PlainlyApart (targets paths : List String) : Prop where
  targetsApart : (targets.map Path.plainSpelling).Nodup
  pathsApart : (paths.map Path.plainSpelling).Nodup
  filePaths : ∀ path ∈ paths, isConfigFilePath (Path.plainSpelling path) = true
  visible : ∀ path ∈ paths, isShadowed (targets.map plainMount) (Path.plainSpelling path) = false
  uncovered : (∀ target ∈ targets, ∀ path ∈ paths, Path.startsWith target path = false) ∧
    paths.Pairwise fun one other =>
      Path.startsWith one other = false ∧ Path.startsWith other one = false

section Accepted

variable {targets paths : List String}

theorem plain_nodup_iff (absolute : ∀ path ∈ paths, Path.isAbsolute path = true) :
    (paths.map Path.plainSpelling).Nodup ↔ (paths.map Path.components).Nodup := by
  constructor
  · intro distinct
    apply List.Nodup.of_map fun parts =>
      if parts.tail = [] then "/" else String.ofList (Path.spell parts.tail)
    rw [List.map_map]
    exact distinct
  · intro distinct
    apply List.Nodup.of_map Path.components
    rw [List.map_map]
    have same : paths.map (Path.components ∘ Path.plainSpelling) = paths.map Path.components :=
      List.map_congr_left fun path member => Path.components_plain_spelling (absolute path member)
    rw [same]
    exact distinct

/-- A path a file may have stays one in its plain spelling, unless it is the root. -/
theorem plain_file_path_iff {path : String} (accepted : isConfigFilePath path = true) :
    isConfigFilePath (Path.plainSpelling path) = true ↔ Path.components path ≠ [.rootDir] := by
  unfold isConfigFilePath at accepted ⊢
  simp only [Bool.and_eq_true, Bool.not_eq_true'] at accepted ⊢
  obtain ⟨⟨absolute, -⟩, noParent⟩ := accepted
  have still : Path.mentionsParent (Path.plainSpelling path) = false := by
    unfold Path.mentionsParent at noParent ⊢
    rw [Path.components_plain_spelling absolute]
    exact noParent
  have ends := Path.ends_with_separator_iff absolute
  have parts := Path.components_absolute absolute
  constructor
  · rintro ⟨⟨-, notEnded⟩, -⟩ root
    rw [root] at parts
    have none : Path.inner path = [] := (List.cons.inj parts).2.symm
    rw [ends.mpr none] at notEnded
    cases notEnded
  · intro below
    refine ⟨⟨Path.plain_spelling_absolute path, ?_⟩, still⟩
    rw [Bool.eq_false_iff]
    intro ended
    apply below
    rw [parts, ends.mp ended]

theorem shadowed_iff {mounts : List ServiceMount} {path : String} :
    isShadowed mounts path = true ↔ ∃ mount ∈ mounts,
      path = Text.trimEndMatches mount.target '/' ∨
        Text.startsWith path (Text.trimEndMatches mount.target '/' ++ "/") = true := by
  unfold isShadowed
  rw [List.any_eq_true]
  apply exists_congr
  intro mount
  rw [Bool.or_eq_true, decide_eq_true_eq]

theorem plain_shadowed_iff (rooted : ∀ target ∈ targets, Path.isAbsolute target = true)
    {path : String} (accepted : isConfigFilePath path = true)
    (below : Path.components path ≠ [.rootDir]) :
    isShadowed (targets.map plainMount) (Path.plainSpelling path) = false ↔
      ∀ target ∈ targets, Path.startsWith path target = false := by
  unfold isConfigFilePath at accepted
  simp only [Bool.and_eq_true] at accepted
  have absolute : Path.isAbsolute path = true := accepted.1.1
  have inner : Path.inner path ≠ [] := by
    intro none
    rw [Path.components_absolute absolute, none] at below
    exact below rfl
  rw [← Bool.not_eq_true, shadowed_iff]
  constructor
  · intro visible target member
    rw [← Bool.not_eq_true, ← Path.plain_below_iff absolute (rooted target member) inner]
    exact fun below => visible ⟨plainMount target, List.mem_map_of_mem member, below⟩
  · intro outside
    rintro ⟨mount, isMount, below⟩
    obtain ⟨target, member, rfl⟩ := List.mem_map.mp isMount
    have starts := (Path.plain_below_iff absolute (rooted target member) inner).mp below
    rw [outside target member] at starts
    cases starts

/-- The promises, for accepted targets and paths, in terms of their plain spellings. -/
theorem plainly_apart_iff (rooted : ∀ target ∈ targets, Path.isAbsolute target = true)
    (accepted : ∀ path ∈ paths, isConfigFilePath path = true) :
    ((targets.map Path.components).Nodup ∧ (paths.map Path.components).Nodup ∧
      (∀ path ∈ paths, ∀ target ∈ targets, Path.startsWith path target = false)) ∧
      (∀ path ∈ paths, Path.components path ≠ [.rootDir]) ∧ Uncrossed targets paths ↔
      PlainlyApart targets paths := by
  have absolute : ∀ path ∈ paths, Path.isAbsolute path = true := by
    intro path member
    have isPath := accepted path member
    unfold isConfigFilePath at isPath
    simp only [Bool.and_eq_true] at isPath
    exact isPath.1.1
  constructor
  · rintro ⟨⟨distinctTargets, distinctPaths, outside⟩, below, crossing, pairwise⟩
    exact {
      targetsApart := (plain_nodup_iff rooted).mpr distinctTargets
      pathsApart := (plain_nodup_iff absolute).mpr distinctPaths
      filePaths := fun path member =>
        (plain_file_path_iff (accepted path member)).mpr (below path member)
      visible := fun path member =>
        (plain_shadowed_iff rooted (accepted path member) (below path member)).mpr (outside path member)
      uncovered := by
        constructor
        · intro target isTarget path isPath
          exact (not_crosses_iff.mp (crossing target isTarget path isPath)).2
        · exact pairwise.imp fun apart => not_crosses_iff.mp apart }
  · intro apart
    have below : ∀ path ∈ paths, Path.components path ≠ [.rootDir] := fun path member =>
      (plain_file_path_iff (accepted path member)).mp (apart.filePaths path member)
    have outside : ∀ path ∈ paths, ∀ target ∈ targets, Path.startsWith path target = false :=
      fun path member => (plain_shadowed_iff rooted (accepted path member) (below path member)).mp
        (apart.visible path member)
    refine ⟨⟨(plain_nodup_iff rooted).mp apart.targetsApart,
      (plain_nodup_iff absolute).mp apart.pathsApart, outside⟩, below, ?_, ?_⟩
    · intro target isTarget path isPath
      exact not_crosses_iff.mpr
        ⟨outside path isPath target isTarget, apart.uncovered.1 target isTarget path isPath⟩
    · exact apart.uncovered.2.imp fun both => not_crosses_iff.mpr both

end Accepted

theorem host_path_absolute {value result : Option String}
    (accepted : normalizeHostPath value = .ok result) {path : String}
    (normal : normalizeOptionalString result = some path) : Path.isAbsolute path = true := by
  have again := normalize_host_path_again accepted
  unfold normalizeHostPath at again
  rw [normal] at again
  dsimp only at again
  split_ifs at again with relative
  simpa using relative

def FiledAs (request : ConfigFileRequest) (file : ConfigFile) : Prop :=
  file.path = Text.trim request.path ∧ isConfigFilePath file.path = true

theorem build_config_files_filed {crates : Crates} {files : List ConfigFileRequest}
    {mounts : List ServiceMount} {result : List ConfigFile}
    (accepted : buildConfigFiles crates files mounts = .ok result) :
    List.Forall₂ FiledAs files result := by
  unfold buildConfigFiles at accepted
  split_ifs at accepted
  have appends : ∀ parsed file next, pushConfigFile crates mounts parsed file = .ok next →
      ∃ out, FiledAs file out ∧ next = parsed ++ [out] := by
    intro parsed file next pushed
    obtain ⟨isPath, -, -, -, same⟩ := push_config_file_iff.mp pushed
    refine ⟨_, ?_, same⟩
    exact ⟨rfl, isPath⟩
  obtain ⟨outs, matched, whole⟩ := foldlM_matched appends accepted
  rw [whole]
  exact matched

/-- A round starts from the stored files, and from none for a new service. -/
theorem StartsFrom.files {existing : List ContainerService} {name : String}
    {origin : ContainerService} (starts : StartsFrom existing name origin) :
    origin.files = storedFiles existing name := by
  unfold storedFiles
  cases starts with
  | stored found =>
      rw [found]
      rfl
  | new missing id now appId image port =>
      rw [missing]
      rfl

section Round

variable {crates : Crates} {appId : Uuid} {existing services : List ContainerService}
  {isAdmin : Bool} {request : ServiceRequest} {requests : List ServiceRequest}
  {origin service : ContainerService} {serviceType : ServiceType} {schedule : Option String}

theorem Round.mount_points_iff
    (round : Round crates appId existing isAdmin request origin serviceType schedule service)
    (workDir : String) : (MountPointsApart service ∧ ConfigFilesShown workDir appId service) ↔
      PlainlyApart (requestedTargets request) (requestedPaths existing request) := by
  have mounted := build_service_mounts_stored round.configured.mounts
  have filed := build_config_files_filed round.configured.files
  have targets : service.mounts.map (·.target) = requestedTargets request :=
    matched_keys mounted fun asked mount stored => stored.target
  have paths : service.files.map (·.path) = requestedPaths existing request := by
    unfold requestedPaths
    rw [← round.starts.files]
    exact matched_keys filed fun asked file stored => stored.1
  have rooted : ∀ target ∈ requestedTargets request, Path.isAbsolute target = true := by
    intro target member
    rw [← targets] at member
    obtain ⟨mount, isMount, rfl⟩ := List.mem_map.mp member
    obtain ⟨asked, -, stored⟩ := matched_right mounted isMount
    exact stored.rooted
  have accepted : ∀ path ∈ requestedPaths existing request, isConfigFilePath path = true := by
    intro path member
    rw [← paths] at member
    obtain ⟨file, isFile, rfl⟩ := List.mem_map.mp member
    obtain ⟨asked, -, stored⟩ := matched_right filed isFile
    exact stored.2
  have absolute : Cron.AbsoluteHostPaths service := by
    intro mount isMount path normal
    obtain ⟨asked, -, stored⟩ := matched_right mounted isMount
    exact host_path_absolute stored.hostPath normal
  have apart : MountPointsApart service ↔
      ((requestedTargets request).map Path.components).Nodup ∧
        ((requestedPaths existing request).map Path.components).Nodup ∧
        ∀ path ∈ requestedPaths existing request, ∀ target ∈ requestedTargets request,
          Path.startsWith path target = false := by
    rw [← targets, ← paths, List.map_map, List.map_map]
    constructor
    · intro promised
      refine ⟨promised.targets, promised.paths, ?_⟩
      intro path isPath target isTarget
      obtain ⟨file, isFile, rfl⟩ := List.mem_map.mp isPath
      obtain ⟨mount, isMount, rfl⟩ := List.mem_map.mp isTarget
      exact promised.outside file isFile mount isMount
    · rintro ⟨distinctTargets, distinctPaths, outside⟩
      refine ⟨distinctTargets, distinctPaths, ?_⟩
      intro file isFile mount isMount
      exact outside _ (List.mem_map_of_mem isFile) _ (List.mem_map_of_mem isMount)
  have shown : ConfigFilesShown workDir appId service ↔
      (∀ path ∈ requestedPaths existing request, Path.components path ≠ [.rootDir]) ∧
        Uncrossed (requestedTargets request) (requestedPaths existing request) := by
    rw [← targets, ← paths, List.forall_mem_map]
    constructor
    · intro always
      obtain ⟨binds, after, run⟩ := service_mounts_run workDir appId absolute fun _ => none
      exact (shown_iff run).mp (always _ binds after run)
    · intro apart before binds after run
      exact (shown_iff run).mpr apart
  rw [apart, shown]
  exact plainly_apart_iff rooted accepted

/-- Of the services of an accepted call, each keeps its promises exactly when the targets and
paths that were asked for are apart in their plain spellings too, and nothing lies inside a
config file. -/
theorem mount_points_apart_iff
    (accepted : (buildServices crates appId existing requests isAdmin).run.Yields (.ok services))
    (workDir : String) :
    List.Forall₂ (fun request service =>
      (MountPointsApart service ∧ ConfigFilesShown workDir appId service) ↔
        PlainlyApart (requestedTargets request) (requestedPaths existing request))
      requests services := by
  apply (build_services_rounds accepted).1.imp
  rintro request service ⟨origin, serviceType, schedule, round⟩
  exact round.mount_points_iff workDir

end Round

def demoFileRequest (targets : List String) (path : String) : ServiceRequest :=
  { demoServiceRequest "web" with
    mounts := some (targets.mapIdx fun index target =>
      ⟨"volume" ++ toString index, target, none, none, none⟩)
    files := some [⟨path, "listen 80;"⟩] }

def demoFiled (targets : List String) (path : String) : ContainerService :=
  { ContainerService.new ⟨1⟩ 0 ⟨1⟩ "web" "nginx" 80 with
    mounts := targets.mapIdx fun index target =>
      ⟨"volume" ++ toString index, target, false, none, false⟩
    files := [⟨path, "listen 80;"⟩] }

/-- A file beside the volumes is shown. -/
theorem file_beside_volume_shown :
    MountPointsApart (demoFiled ["/data", "/cache"] "/etc/app.conf") ∧
      ConfigFilesShown "/srv" ⟨1⟩ (demoFiled ["/data", "/cache"] "/etc/app.conf") := by
  have built : demoEdited [] (demoFileRequest ["/data", "/cache"] "/etc/app.conf") false =
      some [demoFiled ["/data", "/cache"] "/etc/app.conf"] := by decide +kernel
  cases mount_points_apart_iff (demo_edited_yields built) "/srv" with
  | cons first _ =>
      apply first.mpr
      exact {
        targetsApart := by decide +kernel
        pathsApart := by decide +kernel
        filePaths := by decide +kernel
        visible := by decide +kernel
        uncovered := by decide +kernel }

/-- Two spellings of one target, and of a path inside it, are accepted. -/
theorem volume_spelled_twice :
    (buildServices demoCrates ⟨1⟩ [] [demoFileRequest ["/data", "/data/"] "//data/app.conf"]
      false).run.Yields (.ok [demoFiled ["/data", "/data/"] "//data/app.conf"]) ∧
      ¬((demoFiled ["/data", "/data/"] "//data/app.conf").mounts.map fun mount =>
        Path.components mount.target).Nodup ∧
      Path.startsWith "//data/app.conf" "/data" = true ∧
      ¬MountPointsApart (demoFiled ["/data", "/data/"] "//data/app.conf") := by
  have built : demoEdited [] (demoFileRequest ["/data", "/data/"] "//data/app.conf") false =
      some [demoFiled ["/data", "/data/"] "//data/app.conf"] := by decide +kernel
  have repeated : ¬((demoFiled ["/data", "/data/"] "//data/app.conf").mounts.map fun mount =>
      Path.components mount.target).Nodup := by decide +kernel
  exact ⟨demo_edited_yields built, repeated, by decide +kernel, fun apart => repeated apart.targets⟩

end Containr.Api
