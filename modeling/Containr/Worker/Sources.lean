import Containr.Api.Archives
import Containr.Files.Removal
import Containr.Rollout.Names
import Containr.Worker.Builds

/-!
# Tags, checkouts and uploads of a job

The commit reference of a job is free text, and so are the names of services and the path of a local
source. They end up in the tags of images, in the name of the checkout, and in the path that is
removed once the job is done.
-/

namespace Containr.Worker

open Containr.Effect Containr.Effect.Program Containr.Files Containr.Rollout
open Containr.Api.Archives (pathNames)

def tagStart (ch : Char) : Bool := Text.isAsciiAlphanumeric ch || ch = '_'

def tagChar (ch : Char) : Bool := tagStart ch || ch = '.' || ch = '-'

def DockerTag (tag : String) : Prop :=
  ∃ first rest, tag.toList = first :: rest ∧ tagStart first = true ∧ rest.length ≤ 127 ∧
    ∀ ch ∈ rest, tagChar ch = true

theorem alphanumeric_iff (ch : Char) : Text.isAsciiAlphanumeric ch = true ↔
    (('A'.val ≤ ch.val ∧ ch.val ≤ 'Z'.val) ∨ ('a'.val ≤ ch.val ∧ ch.val ≤ 'z'.val)) ∨
      ch.isDigit = true := by
  have whole : Text.isAsciiAlphanumeric ch =
      ((decide ('A'.val ≤ ch.val ∧ ch.val ≤ 'Z'.val) ||
        (decide ('a'.val ≤ ch.val) && decide (ch.val ≤ 'z'.val))) || ch.isDigit) := rfl
  rw [whole]
  simp only [Bool.or_eq_true, Bool.and_eq_true, decide_eq_true_eq]

variable {ch : Char}

theorem alphanumeric_ascii (alphanumeric : Text.isAsciiAlphanumeric ch = true) :
    ch.utf8Size = 1 := by
  have small : ch.val ≤ 0x7f := by
    rcases (alphanumeric_iff ch).mp alphanumeric with (upper | lower) | digit
    · exact UInt32.le_trans upper.2 (by decide)
    · exact UInt32.le_trans lower.2 (by decide)
    · simp only [Char.isDigit, Bool.and_eq_true, decide_eq_true_eq] at digit
      exact UInt32.le_trans digit.2 (by decide)
  simp [Char.utf8Size, small]

theorem tag_char_of_start (start : tagStart ch = true) : tagChar ch = true := by
  simp [tagChar, start]

theorem tag_char_ascii (isTag : tagChar ch = true) : ch.utf8Size = 1 := by
  simp only [tagChar, tagStart, Bool.or_eq_true, decide_eq_true_eq] at isTag
  rcases isTag with ((alphanumeric | same) | same) | same
  · exact alphanumeric_ascii alphanumeric
  · rw [same]
    decide
  · rw [same]
    decide
  · rw [same]
    decide

theorem tag_char_no_separator : tagChar '/' = false := by decide

theorem hex_char_tag (isHex : isHexChar ch = true) : tagStart ch = true := by
  have alphanumeric : Text.isAsciiAlphanumeric ch = true := by
    rw [alphanumeric_iff]
    simp only [isHexChar, Bool.or_eq_true, Bool.and_eq_true, decide_eq_true_eq] at isHex
    rcases isHex with digit | letter
    · exact Or.inr digit
    · have low := Char.le_def.mp letter.1
      have high := UInt32.le_trans (Char.le_def.mp letter.2) (by decide : 'f'.val ≤ 'z'.val)
      exact Or.inl (Or.inr ⟨low, high⟩)
  unfold tagStart
  rw [alphanumeric, Bool.true_or]

theorem short_id_tag {id : Uuid} (member : ch ∈ (shortDeploymentId id).toList) :
    tagStart ch = true := by
  rw [short_id_chars] at member
  exact hex_char_tag (hex_digits_chars (List.mem_of_mem_take member))

/-- The filter keeps the characters of tags, and the skip stops at one that may stand first. -/
theorem commit_prefix_tag (commitSha : String) : ∃ first rest,
    (commitTagPrefix commitSha).toList = first :: rest ∧ tagStart first = true ∧
      ∀ ch ∈ rest, tagChar ch = true := by
  unfold commitTagPrefix
  dsimp only
  generalize isAllowed : commitSha.toList.filter (fun ch =>
    Text.isAsciiAlphanumeric ch || ch = '_' || ch = '.' || ch = '-') = allowed
  have tags : ∀ ch ∈ allowed, tagChar ch = true := by
    intro ch member
    rw [← isAllowed] at member
    exact List.of_mem_filter member
  have stopped := List.head?_dropWhile_not (fun ch => decide (ch = '.') || decide (ch = '-')) allowed
  have within := (List.dropWhile_suffix (l := allowed)
    fun ch => decide (ch = '.') || decide (ch = '-')).subset
  cases whole : allowed.dropWhile fun ch => decide (ch = '.') || decide (ch = '-') with
  | nil =>
      have letters : ['o', 'u', 'r', 'c', 'e'].all tagChar = true := by decide
      exact ⟨'s', ['o', 'u', 'r', 'c', 'e'], rfl, by decide, List.all_eq_true.mp letters⟩
  | cons first rest =>
      rw [whole] at stopped within
      have isTag := tags first (within List.mem_cons_self)
      refine ⟨first, rest.take 7, by simp, ?_, ?_⟩
      · have other := Bool.or_eq_false_iff.mp stopped
        simpa [tagChar, other] using isTag
      · intro ch member
        exact tags ch (within (List.mem_cons_of_mem first (List.mem_of_mem_take member)))

theorem image_suffix_tag {value : String} (member : ch ∈ (sanitizeImageSuffix value).toList) :
    tagChar ch = true := by
  unfold sanitizeImageSuffix at member
  dsimp only at member
  split_ifs at member with empty
  · have letters : ['s', 'e', 'r', 'v', 'i', 'c', 'e'].all tagChar = true := by decide
    exact List.all_eq_true.mp letters ch member
  · rw [String.toList_ofList] at member
    obtain ⟨source, -, same⟩ := List.mem_map.mp member
    rw [← same]
    split_ifs with plain
    · simp only [tagChar, tagStart, Bool.or_eq_true] at plain ⊢
      tauto
    · decide

def buildTag (deployment : Deployment) (commitSha : String) (service : ContainerService) : String :=
  commitTagPrefix commitSha ++ "-" ++ shortDeploymentId deployment.id ++ "-" ++
    sanitizeImageSuffix service.name

theorem build_tag_chars (deployment : Deployment) (commitSha : String) (service : ContainerService) :
    ∃ first rest, (buildTag deployment commitSha service).toList = first :: rest ∧
      tagStart first = true ∧ ∀ ch ∈ rest, tagChar ch = true := by
  obtain ⟨first, rest, chars, start, tags⟩ := commit_prefix_tag commitSha
  have hyphen : tagChar '-' = true := by decide
  refine ⟨first, rest ++ '-' :: (shortDeploymentId deployment.id).toList ++
    '-' :: (sanitizeImageSuffix service.name).toList, ?_, start, ?_⟩
  · have mark : "-".toList = ['-'] := rfl
    unfold buildTag
    simp only [String.toList_append, chars, mark]
    simp
  · intro ch member
    simp only [List.append_assoc, List.cons_append, List.mem_append, List.mem_cons] at member
    rcases member with front | same | short | same | suffix
    · exact tags ch front
    · rw [same]
      exact hyphen
    · exact tag_char_of_start (short_id_tag short)
    · rw [same]
      exact hyphen
    · exact image_suffix_tag suffix

theorem image_name_tagged (app : App) (deployment : Deployment) (commitSha : String)
    (service : ContainerService) : ∃ tag,
      Text.truncate 128 (buildTag deployment commitSha service) = some tag ∧ DockerTag tag ∧
      imageName app deployment commitSha service = "containr/" ++ app.id.toString ++ ":" ++ tag := by
  obtain ⟨first, rest, chars, start, tags⟩ := build_tag_chars deployment commitSha service
  have ascii : ∀ ch ∈ (buildTag deployment commitSha service).toList, ch.utf8Size = 1 := by
    intro ch member
    rw [chars] at member
    rcases List.mem_cons.mp member with same | later
    · rw [same]
      exact tag_char_ascii (tag_char_of_start start)
    · exact tag_char_ascii (tags ch later)
  refine ⟨_, Text.truncate_ascii ascii 128, ⟨first, rest.take 127, ?_, start, ?_, ?_⟩, rfl⟩
  · unfold Text.takeChars
    rw [String.toList_ofList, chars]
    rfl
  · rw [List.length_take]
    omega
  · intro ch member
    exact tags ch (List.mem_of_mem_take member)

def BuildsTagged (app : App) (deployment : Deployment) (commitSha : String) : Op → Prop
  | .external (.buildImage name _) =>
      ∃ service ∈ app.services, name = imageName app deployment commitSha service
  | _ => True

section Builds

variable {app : App} {deployment : Deployment} {commitSha : String}

theorem tagged_of_nothing (op : Op) (nothing : BuildsNothing op) :
    BuildsTagged app deployment commitSha op := by
  unfold BuildsTagged
  split
  · rename_i name config
    exact absurd rfl (nothing name config)
  · trivial

theorem build_from_source_tagged (repoPath : Option String) (isLocalTarget : Bool) (built : Built)
    {service : ContainerService} (member : service ∈ app.services) :
    (buildFromSource app deployment repoPath commitSha isLocalTarget built service).run.Calls
      (BuildsTagged app deployment commitSha) := by
  have logs : ∀ line, (ignore (Store.appendDeploymentLog deployment.id line)).Calls
      (BuildsTagged app deployment commitSha) := fun line =>
    (log_builds_nothing _ line).mono tagged_of_nothing
  have asks : ∀ action : External, action.AsksTree →
      BuildsTagged app deployment commitSha (.external action) := by
    intro action asks
    cases action <;> trivial
  unfold buildFromSource
  apply Calls.run_bind
  · exact build_config_calls asks repoPath isLocalTarget service
  intro config
  dsimp only
  split
  · exact calls_pure _
  · apply Calls.run_lift_bind
    · exact logs _
    intro _
    apply Calls.run_lift_bind
    · exact op_calls ⟨service, member, rfl⟩
    intro outcome
    apply Calls.run_lift_bind
    · exact calls_for_all _ fun line _ => logs line
    intro _
    exact Calls.run_return (calls_pure _)

theorem build_service_image_tagged (repoPath : Option String) (target : Option Uuid) (built : Built)
    {service : ContainerService} (member : service ∈ app.services) :
    (buildServiceImage app deployment repoPath commitSha target built service).run.Calls
      (BuildsTagged app deployment commitSha) := by
  unfold buildServiceImage
  dsimp only
  split
  · split
    · exact Calls.run_return ((previous_image_builds_nothing _ _ service).mono tagged_of_nothing)
    · exact calls_pure _
  · split
    · exact calls_pure _
    · exact build_from_source_tagged repoPath _ built member

theorem build_service_images_tagged (repoPath : Option String) (target : Option Uuid) :
    (buildServiceImages app deployment repoPath commitSha target).run.Calls
      (BuildsTagged app deployment commitSha) := by
  unfold buildServiceImages
  apply Calls.run_bind
  · exact ensure_calls _ _
  intro _
  apply Calls.run_bind
  · apply calls_foldlM
    intro built service member
    exact build_service_image_tagged repoPath target built member
  intro built
  exact calls_pure _

end Builds

def DirectChild (directory path : String) : Prop :=
  ∃ name, Path.components path = Path.components directory ++ [.normal name]

def checkoutName (job : DeploymentJob) : String :=
  job.appId.toString ++ "_" ++ commitTagPrefix job.commitSha ++ "_" ++
    shortDeploymentId job.deploymentId

theorem checkout_name_chars {job : DeploymentJob} (member : ch ∈ (checkoutName job).toList) :
    tagChar ch = true := by
  obtain ⟨first, rest, chars, start, tags⟩ := commit_prefix_tag job.commitSha
  have mark : "_".toList = ['_'] := rfl
  have underscore : tagChar '_' = true := by decide
  unfold checkoutName at member
  simp only [String.toList_append, chars, mark, List.mem_append, List.mem_cons, List.not_mem_nil,
    or_false, or_assoc] at member
  rcases member with app | same | same | later | same | short
  · rcases uuid_chars_hex app with isHex | same
    · exact tag_char_of_start (hex_char_tag isHex)
    · rw [same]
      decide
  · rw [same]
    exact underscore
  · rw [same]
    exact tag_char_of_start start
  · exact tags ch later
  · rw [same]
    exact underscore
  · exact tag_char_of_start (short_id_tag short)

theorem checkout_name_plain (job : DeploymentJob) : Path.PlainName (checkoutName job) := by
  have underscore : '_' ∈ (checkoutName job).toList := by
    unfold checkoutName
    simp
  constructor
  · exact List.ne_nil_of_mem underscore
  · intro member
    have isTag := checkout_name_chars member
    rw [tag_char_no_separator] at isTag
    cases isTag
  · intro same
    rw [same] at underscore
    revert underscore
    decide
  · intro same
    rw [same] at underscore
    revert underscore
    decide

theorem checkout_child (workDir : String) (job : DeploymentJob) :
    DirectChild workDir (Path.join workDir (checkoutName job)) :=
  ⟨_, Path.components_join (checkout_name_plain job)⟩

/-- What a checkout removes, clones into and works in are children of the work directory. -/
def ChecksOutIn (workDir : String) : Op → Prop
  | .external (.removeDirAll path) => DirectChild workDir path
  | .external (.git _ directory arguments) =>
      (∀ repo, directory = some repo → DirectChild workDir repo) ∧
      (arguments.head? = some "clone" →
        ∃ target, arguments.getLast? = some target ∧ DirectChild workDir target)
  | _ => False

section Checkout

variable {workDir repo : String}

theorem clone_from_checks_out (child : DirectChild workDir repo) (job : DeploymentJob)
    (sourceUrl : String) : (cloneFrom job repo sourceUrl).run.Calls (ChecksOutIn workDir) := by
  apply clone_from_calls
  · constructor
    · intro other isOther
      cases isOther
    · intro _
      exact ⟨repo, rfl, child⟩
  · intro command member arguments
    constructor
    · intro other isOther
      cases isOther
      exact child
    · intro isClone
      have same : command = "clone" := by simpa using isClone
      rw [same] at member
      simp at member

theorem remove_dir_all_calls {allowed : Op → Prop} {path : String}
    (permitted : allowed (.external (.removeDirAll path))) : (removeDirAll path).Calls allowed :=
  (op_calls permitted).bind fun _ => calls_pure _

theorem clone_repo_checks_out (runtime : Runtime) (job : DeploymentJob) :
    (cloneRepo runtime job).run.Calls (ChecksOutIn runtime.workDir) := by
  have child := checkout_child runtime.workDir job
  unfold cloneRepo
  apply Calls.run_lift_bind
  · exact remove_dir_all_calls child
  intro _
  split
  · exact calls_pure _
  · exact clone_from_checks_out child job _
  · split
    · exact calls_pure _
    · exact clone_from_checks_out child job _

end Checkout

def BelowUploads (workDir path : String) : Prop :=
  (∃ names : List (List Char), names ≠ [] ∧ Path.components path =
    Path.components (Path.join workDir uploadsDirName) ++ names.map Path.Component.normal) ∧
  .parentDir ∉ Path.components path

theorem uploads_plain : Path.PlainName uploadsDirName := by
  constructor <;> decide

theorem is_uploaded_source_iff (workDir path : String) :
    isUploadedSource workDir path = true ↔ BelowUploads workDir path := by
  have joined := @Path.components_join workDir _ uploads_plain
  have parents : Path.mentionsParent path = false ↔ .parentDir ∉ Path.components path := by
    unfold Path.mentionsParent
    simp only [List.any_eq_false, decide_eq_true_eq]
    constructor
    · intro every member
      exact every _ member rfl
    · intro absent part member same
      rw [same] at member
      exact absent member
  unfold isUploadedSource
  simp only [Bool.and_eq_true, Bool.not_eq_true', parents, Path.starts_with_iff, decide_eq_true_eq,
    ne_eq]
  constructor
  · intro accepted
    obtain ⟨⟨starts, differs⟩, noParent⟩ := accepted
    obtain ⟨rest, whole⟩ := starts
    have nonempty : Path.components (Path.join workDir uploadsDirName) ≠ [] := by
      rw [joined]
      simp
    obtain ⟨names, isRest⟩ := Path.names_behind whole.symm nonempty noParent
    refine ⟨⟨names, ?_, ?_⟩, noParent⟩
    · intro none
      rw [none, List.map_nil] at isRest
      rw [isRest, List.append_nil] at whole
      exact differs whole.symm
    · rw [← whole, isRest]
  · intro below
    obtain ⟨⟨names, nonempty, whole⟩, noParent⟩ := below
    refine ⟨⟨⟨_, whole.symm⟩, ?_⟩, noParent⟩
    intro same
    rw [whole] at same
    have none := List.append_cancel_left (same.trans (List.append_nil _).symm)
    exact nonempty (List.map_eq_nil_iff.mp none)

def RemovesUpload (workDir : String) : Op → Prop
  | .external (.removeDirAll path) => BelowUploads workDir path
  | _ => False

theorem cleanup_removes_upload (runtime : Runtime) (job : DeploymentJob) :
    (cleanupUploadedSource runtime job).Calls (RemovesUpload runtime.workDir) := by
  unfold cleanupUploadedSource
  split
  · split
    · rename_i uploaded
      exact remove_dir_all_calls ((is_uploaded_source_iff _ _).mp uploaded)
    · exact calls_pure _
  · exact calls_pure _
  · exact calls_pure _

theorem clone_from_returns (job : DeploymentJob) (repo sourceUrl : String) :
    (cloneFrom job repo sourceUrl).run.Under (fun _ _ => True) (fun _ => True)
      (OnOk fun path => path = repo) := by
  unfold cloneFrom
  apply under_run_lift_bind.mpr
  apply (calls_anything _).under.mono
  intro cloned _
  split
  · exact under_throw _ _
  · apply under_run_lift_bind.mpr
    apply (calls_anything _).under.mono
    intro _ _
    exact under_return rfl

/-- The path that is removed after the build is the checkout or an upload. -/
theorem clone_repo_returns (runtime : Runtime) (job : DeploymentJob) :
    (cloneRepo runtime job).run.Under (fun _ _ => True) (ChecksOutIn runtime.workDir)
      (OnOk fun path => DirectChild runtime.workDir path ∨ BelowUploads runtime.workDir path) := by
  have cloned : ∀ sourceUrl, (cloneFrom job (Path.join runtime.workDir (checkoutName job))
      sourceUrl).run.Under (fun _ _ => True) (fun _ => True)
      (OnOk fun path => DirectChild runtime.workDir path ∨ BelowUploads runtime.workDir path) := by
    intro sourceUrl
    apply (clone_from_returns job _ sourceUrl).ok_mono
    intro path same
    rw [same]
    exact Or.inl (checkout_child runtime.workDir job)
  apply Under.within _ (clone_repo_checks_out runtime job)
  · exact fun _ => True
  unfold cloneRepo
  apply under_run_lift_bind.mpr
  apply (calls_anything _).under.mono
  intro _ _
  split
  · exact under_throw _ _
  · exact cloned _
  · split
    · rename_i uploaded
      exact under_return (Or.inr ((is_uploaded_source_iff _ _).mp uploaded))
    · exact cloned _

/-- Where the first name is looked up. -/
def startOf (current : List (List Char)) (path : String) : List (List Char) :=
  if Path.isAbsolute path then [] else current

variable {workDir path : String}

theorem names_below {names : List (List Char)} (whole : Path.components path =
      Path.components (Path.join workDir uploadsDirName) ++ names.map Path.Component.normal) :
    pathNames path = pathNames (Path.join workDir uploadsDirName) ++ names := by
  unfold pathNames
  rw [whole, List.filterMap_append, List.filterMap_map]
  congr 1
  exact List.filterMap_some

theorem start_below {names : List (List Char)} (whole : Path.components path =
      Path.components (Path.join workDir uploadsDirName) ++ names.map Path.Component.normal)
    (current : List (List Char)) :
    startOf current path = startOf current (Path.join workDir uploadsDirName) := by
  have nonempty : Path.components (Path.join workDir uploadsDirName) ≠ [] := by
    rw [Path.components_join uploads_plain]
    simp
  have same : Path.isAbsolute path = Path.isAbsolute (Path.join workDir uploadsDirName) := by
    apply Bool.eq_iff_iff.mpr
    rw [Path.is_absolute_iff, Path.is_absolute_iff, whole, List.head?_append_of_ne_nil _ nonempty]
  unfold startOf
  rw [same]

def UploadsAt (disk : Disk (List Char)) (current : List (List Char)) (workDir : String)
    (directory : List (List Char)) : Prop :=
  disk.Lands (startOf current (Path.join workDir uploadsDirName))
    (pathNames (Path.join workDir uploadsDirName)) directory

/-- What `remove_dir_all` may leave when it ends. -/
def RemovesPath (disk : Disk (List Char)) (current : List (List Char)) (path : String)
    (after : Disk (List Char)) : Prop :=
  ∃ location, disk.Place (startOf current path) (pathNames path) location ∧
    disk.Removal location after

theorem removal_below_uploads {disk after : Disk (List Char)} {current : List (List Char)}
    (below : BelowUploads workDir path)
    (free : ∀ directory, UploadsAt disk current workDir directory → disk.LinkFree directory)
    (removes : RemovesPath disk current path after) :
    ∃ directory, UploadsAt disk current workDir directory ∧ after.content = disk.content ∧
      ∀ other, (∀ names, names ≠ [] → other ≠ directory ++ names) →
        after.object other = disk.object other := by
  obtain ⟨⟨names, nonempty, whole⟩, -⟩ := below
  obtain ⟨location, place, removal⟩ := removes
  rw [names_below whole, start_below whole] at place
  obtain ⟨directory, isThere, isLocation⟩ := Disk.place_below place nonempty free
  refine ⟨directory, isThere, Disk.removal_content removal, ?_⟩
  intro other outside
  apply Disk.removal_outside removal
  intro inside
  obtain ⟨more, same⟩ := inside
  rw [isLocation, List.append_assoc] at same
  exact outside (names ++ more) (by simp [nonempty]) same.symm

/-- Images have tags of docker's, what a checkout removes and fills are children of the work
directory, and only what is below the uploads is removed as an upload. -/
theorem tags_and_uploads_safe (app : App) (deployment : Deployment) (repoPath : Option String)
    (commitSha : String) (target : Option Uuid) (service : ContainerService) (runtime : Runtime)
    (job : DeploymentJob) (path : String) :
    (∃ tag, Text.truncate 128 (buildTag deployment commitSha service) = some tag ∧ DockerTag tag ∧
      imageName app deployment commitSha service =
        "containr/" ++ app.id.toString ++ ":" ++ tag) ∧
    (buildServiceImages app deployment repoPath commitSha target).run.Calls
      (BuildsTagged app deployment commitSha) ∧
    (cloneRepo runtime job).run.Calls (ChecksOutIn runtime.workDir) ∧
    (isUploadedSource runtime.workDir path = true ↔ BelowUploads runtime.workDir path) ∧
    (cleanupUploadedSource runtime job).Calls (RemovesUpload runtime.workDir) ∧
    (BelowUploads runtime.workDir path → ∀ disk after current,
      (∀ directory, UploadsAt disk current runtime.workDir directory → disk.LinkFree directory) →
      RemovesPath disk current path after →
        ∃ directory, UploadsAt disk current runtime.workDir directory ∧
          after.content = disk.content ∧ ∀ other, (∀ names, names ≠ [] → other ≠ directory ++ names) →
            after.object other = disk.object other) :=
  ⟨image_name_tagged app deployment commitSha service, build_service_images_tagged repoPath target,
    clone_repo_checks_out runtime job, is_uploaded_source_iff runtime.workDir path,
    cleanup_removes_upload runtime job, fun below _ _ _ free removes =>
      removal_below_uploads below free removes⟩

example : isUploadedSource "/data/builds" "/data/builds/uploads/abc" = true ∧
    isUploadedSource "/data/builds" "/data/builds/uploads/../../etc" = false := by decide

end Containr.Worker
