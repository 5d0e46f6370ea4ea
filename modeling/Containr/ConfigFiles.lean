import Containr.Cron.Apart
import Containr.Effect.Yields
import Containr.Pushes
import Containr.Segments

/-!
# Config files in a container

Every config file is written to a file of its own, whose name starts with its position, and
bound to its path. A container shows it there unless another bind is at, above or below the
path, or the path is the root.
-/

namespace Containr

open Containr.Effect Containr.Effect.Program Containr.Pushes Containr.Segments

abbrev Contents : Type := String → Option String

/-- A file that was written has the content, setting permissions leaves all contents alone,
and anything else may change them. -/
def Filing : Behaviour Effects Contents
  | .external (.writeFile path content), before, answer, after =>
      answer = Except.ok () → after = Function.update before path (some content)
  | .external (.setPermissions _ _), before, _, after => after = before
  | _, _, _, _ => True

theorem numbered_relative (index : Nat) (name : String) :
    Path.isAbsolute (toString index ++ "-" ++ name) = false := by
  cases absolute : Path.isAbsolute (toString index ++ "-" ++ name) with
  | false => rfl
  | true =>
      obtain ⟨rest, whole⟩ := Text.starts_with_iff.mp absolute
      have chars := congrArg String.toList whole
      rw [String.toList_append, String.toList_append, String.toList_append] at chars
      cases digits : (toString index).toList with
      | nil => exact absurd digits (repr_ne_nil index)
      | cons digit others =>
          rw [digits] at chars
          have first : digit = '/' := (List.cons.inj chars).1
          have member : digit ∈ (toString index).toList := by
            rw [digits]
            exact List.mem_cons_self
          have isDigit := repr_digits index digit member
          rw [first] at isDigit
          exact absurd isDigit (by decide)

theorem config_file_source_inj {dir : String} {one other : Nat} {file otherFile : ConfigFile}
    (same : configFileSource dir one file = configFileSource dir other otherFile) :
    one = other := by
  unfold configFileSource Path.join at same
  rw [numbered_relative, numbered_relative, if_neg Bool.false_ne_true,
    if_neg Bool.false_ne_true] at same
  have names : toString one ++ "-" ++ (Path.fileName file.path).getD "file" =
      toString other ++ "-" ++ (Path.fileName otherFile.path).getD "file" := by
    split_ifs at same
    · exact (String.append_right_inj dir).mp same
    · exact (String.append_right_inj _).mp same
  have chars := congrArg String.toList names
  rw [String.toList_append, String.toList_append, String.toList_append, String.toList_append,
    List.append_assoc, List.append_assoc] at chars
  have digits := mark_append_inj (repr_plain one) (repr_plain other) chars
  exact repr_inj.mp (String.toList_injective digits)

def BoundTo (contents : Contents) (file : ConfigFile) (bind : DockerBindMount) : Prop :=
  bind.target = file.path ∧ contents bind.source = some file.content

/-- The loop over the files: sources of earlier positions are left alone. -/
theorem file_mounts_bound (dir : String) (index : Nat) (files : List ConfigFile)
    (before : Contents) :
    (fileMounts dir index files).run.Ensures Filing (fun result after => ∀ binds,
      result = .ok binds → List.Forall₂ (BoundTo after) files binds ∧
        ∀ source, (∀ later file, index ≤ later → source ≠ configFileSource dir later file) →
          after source = before source) before := by
  induction files generalizing index before with
  | nil =>
      unfold fileMounts
      apply always_run_pure.mpr
      intro binds same
      rw [← Except.ok.inj same]
      exact ⟨.nil, fun _ _ => rfl⟩
  | cons file files ih =>
      unfold fileMounts
      dsimp only
      apply always_run_bind.mpr
      apply always_op trivial
      intro written middle wrote
      cases written with
      | error message =>
          intro _ failed
          cases failed
      | ok _ =>
          have stored := wrote rfl
          apply always_run_bind.mpr
          apply always_op trivial
          intro permitted still same
          cases permitted with
          | error message =>
              intro _ failed
              cases failed
          | ok _ =>
              have unchanged : still = middle := same
              dsimp only
              apply (ih (index + 1) still).run_bind
              intro result after rest
              cases result with
              | error message =>
                  intro _ failed
                  cases failed
              | ok others =>
                  obtain ⟨bound, kept⟩ := rest others rfl
                  apply always_run_pure.mpr
                  intro binds isBinds
                  rw [← Except.ok.inj isBinds]
                  constructor
                  · refine .cons ⟨rfl, ?_⟩ bound
                    have own := kept (configFileSource dir index file) (by
                      intro later other far sameSource
                      have position := config_file_source_inj sameSource
                      omega)
                    rw [own, unchanged, stored]
                    exact Function.update_self ..
                  · intro source apart
                    have later := kept source fun later other far =>
                      apart later other (by omega)
                    rw [later, unchanged, stored]
                    exact Function.update_of_ne (apart index file (Nat.le_refl _)) ..

theorem config_file_mounts_bound (dir : String) (service : ContainerService) (before : Contents) :
    (configFileMounts dir service).run.Ensures Filing (fun result after => ∀ binds,
      result = .ok binds → List.Forall₂ (BoundTo after) service.files binds) before := by
  unfold configFileMounts
  split
  · rename_i empty
    apply always_run_pure.mpr
    intro binds same
    rw [← Except.ok.inj same, List.isEmpty_iff.mp empty]
    exact .nil
  · apply always_run_bind.mpr
    apply always_op trivial
    intro created next _
    cases created with
    | error message =>
        intro _ failed
        cases failed
    | ok _ =>
        apply always_run_bind.mpr
        apply always_op trivial
        intro permitted still _
        cases permitted with
        | error message =>
            intro _ failed
            cases failed
        | ok _ =>
            apply (file_mounts_bound dir 0 service.files still).mono
            intro result after bound binds same
            exact (bound binds same).1

theorem write_config_files_bound (mountsRoot : String) (service : ContainerService)
    (before : Contents) :
    (writeConfigFiles mountsRoot service).run.Ensures Filing (fun result after => ∀ binds,
      result = .ok binds → List.Forall₂ (BoundTo after) service.files binds) before := by
  unfold writeConfigFiles
  apply always_run_bind.mpr
  apply always_op trivial
  intro absolute middle _
  cases absolute with
  | error message =>
      intro _ failed
      cases failed
  | ok dir =>
      apply always_run_lift_bind.mpr
      apply always_op trivial
      intro removed next _
      cases removed with
      | ok _ => exact config_file_mounts_bound dir service next
      | error failed =>
          cases failed with
          | notFound => exact config_file_mounts_bound dir service next
          | other message =>
              apply always_run_throw.mpr
              intro _ failed
              cases failed

variable {binds : List DockerBindMount}

theorem bind_mounts_targets {mountsRoot sharedRoot : String} {mounts : List ServiceMount}
    (yields : (bindMounts mountsRoot sharedRoot mounts).run.Yields (.ok binds)) :
    binds.map (·.target) = mounts.map (·.target) := by
  induction mounts generalizing binds with
  | nil =>
      cases yields_run_pure.mp yields
      rfl
  | cons mount mounts ih =>
      unfold bindMounts at yields
      simp only [yields_ok_bind, yields_run_pure, Except.ok.injEq] at yields
      obtain ⟨source, -, others, rest, same⟩ := yields
      rw [same, List.map_cons, List.map_cons, ih rest]

variable {service : ContainerService}

theorem service_mounts_bound {workDir : String} {appId : Uuid} {before after : Contents}
    (run : Runs Filing (buildServiceMounts workDir appId service).run before (.ok binds) after) :
    ∃ mounts files, binds = mounts ++ files ∧
      mounts.map (·.target) = service.mounts.map (·.target) ∧
      List.Forall₂ (BoundTo after) service.files files := by
  have ensured : (buildServiceMounts workDir appId service).run.Ensures Filing
      (fun result after => ∀ binds, result = .ok binds → ∃ mounts files, binds = mounts ++ files ∧
        mounts.map (·.target) = service.mounts.map (·.target) ∧
        List.Forall₂ (BoundTo after) service.files files) before := by
    unfold buildServiceMounts
    dsimp only
    apply (ensures_of_yields (fun result yields => yields) before).run_bind
    intro mounted middle yields
    cases mounted with
    | error message =>
        intro _ failed
        cases failed
    | ok mounts =>
        dsimp only
        apply (write_config_files_bound _ service middle).run_bind
        intro filed final bound
        cases filed with
        | error message =>
            intro _ failed
            cases failed
        | ok files =>
            apply always_run_pure.mpr
            intro binds same
            exact ⟨mounts, files, (Except.ok.inj same).symm, bind_mounts_targets yields,
              bound files rfl⟩
  exact ensured.runs run binds rfl

theorem service_mounts_run (workDir : String) (appId : Uuid)
    (absolute : Cron.AbsoluteHostPaths service) (before : Contents) : ∃ binds after,
      Runs Filing (buildServiceMounts workDir appId service).run before (.ok binds) after := by
  let oracle : (op : Op) → op.Answer := fun op => (op.exec (calm op World.empty) World.empty).1
  have possible : ∀ op before, ∃ after, Filing op before (oracle op) after := by
    intro op before
    cases op with
    | external action =>
        cases action with
        | writeFile path content => exact ⟨_, fun _ => rfl⟩
        | setPermissions path mode => exact ⟨before, rfl⟩
        | _ => exact ⟨before, trivial⟩
    | _ => exact ⟨before, trivial⟩
  have expected : ∀ op, Cron.Serves op (oracle op) := by
    intro op
    cases op with
    | external action => cases action <;> rfl
    | _ => trivial
  have isOk := (Cron.service_mounts_served workDir appId absolute).evaluated expected
  obtain ⟨after, run⟩ := runs_evaluate possible (buildServiceMounts workDir appId service).run before
  cases outcome : (buildServiceMounts workDir appId service).run.evaluate oracle with
  | error message =>
      rw [outcome] at isOk
      cases isOk
  | ok binds =>
      rw [outcome] at run
      exact ⟨binds, after, run⟩

def Path.crosses (one other : String) : Bool :=
  Path.startsWith one other || Path.startsWith other one

/-- The file is seen at its path: that is not the root, and only the bind of the file, whose
source has the content, is at, above or below it. -/
structure Shown (binds : List DockerBindMount) (contents : Contents) (file : ConfigFile) : Prop
  where
  below : Path.components file.path ≠ [.rootDir]
  alone : ∃ bind, (binds.filter fun other => Path.crosses file.path other.target) = [bind] ∧
    BoundTo contents file bind

section Crossing

variable {one other : String}

theorem crosses_comm (one other : String) : Path.crosses one other = Path.crosses other one := by
  unfold Path.crosses
  rw [Bool.or_comm]

theorem crosses_self (path : String) : Path.crosses path path = true := by
  unfold Path.crosses
  rw [Path.starts_with_self]
  rfl

theorem not_crosses_iff : Path.crosses one other = false ↔
    Path.startsWith one other = false ∧ Path.startsWith other one = false := by
  unfold Path.crosses
  rw [Bool.or_eq_false_iff]

def Uncrossed (targets paths : List String) : Prop :=
  (∀ target ∈ targets, ∀ path ∈ paths, Path.crosses path target = false) ∧
    paths.Pairwise fun one other => Path.crosses one other = false

theorem filter_singleton_iff {mounts files : List DockerBindMount} :
    (∀ bind ∈ files, ((mounts ++ files).filter fun other =>
      Path.crosses bind.target other.target) = [bind]) ↔
      Uncrossed (mounts.map (·.target)) (files.map (·.target)) := by
  constructor
  · intro alone
    constructor
    · intro target inTargets path inPaths
      obtain ⟨mount, isMount, rfl⟩ := List.mem_map.mp inTargets
      obtain ⟨bind, isBind, rfl⟩ := List.mem_map.mp inPaths
      rw [Bool.eq_false_iff]
      intro crossing
      have single := congrArg List.length (alone bind isBind)
      rw [List.filter_append, List.length_append] at single
      have first : mount ∈ mounts.filter fun other => Path.crosses bind.target other.target :=
        List.mem_filter.mpr ⟨isMount, crossing⟩
      have second : bind ∈ files.filter fun other => Path.crosses bind.target other.target :=
        List.mem_filter.mpr ⟨isBind, crosses_self bind.target⟩
      have one := List.length_pos_of_mem first
      have another := List.length_pos_of_mem second
      rw [List.length_singleton] at single
      omega
    · rw [List.pairwise_map, List.pairwise_iff_forall_sublist]
      intro one other both
      rw [Bool.eq_false_iff]
      intro crossing
      have inFiles : one ∈ files := both.subset List.mem_cons_self
      have single := congrArg List.length (alone one inFiles)
      have twice : List.Sublist ([one, other].filter fun bind =>
          Path.crosses one.target bind.target) (files.filter fun bind =>
          Path.crosses one.target bind.target) := both.filter _
      have two := twice.length_le
      rw [List.filter_append, List.length_append, List.length_singleton] at single
      rw [List.filter_cons, if_pos (crosses_self one.target), List.filter_cons,
        if_pos crossing] at two
      simp only [List.filter_nil, List.length_cons, List.length_nil] at two
      omega
  · rintro ⟨apart, pairwise⟩ bind member
    obtain ⟨before, after, split⟩ := List.append_of_mem member
    rw [split, List.map_append, List.map_cons, List.pairwise_append, List.pairwise_cons] at pairwise
    obtain ⟨-, ⟨later, -⟩, earlier⟩ := pairwise
    have noMount : (mounts.filter fun other => Path.crosses bind.target other.target) = [] := by
      rw [List.filter_eq_nil_iff]
      intro mount isMount
      rw [apart _ (List.mem_map_of_mem isMount) _ (List.mem_map_of_mem member)]
      exact Bool.false_ne_true
    have noEarlier : (before.filter fun other => Path.crosses bind.target other.target) = [] := by
      rw [List.filter_eq_nil_iff]
      intro other isBefore
      rw [crosses_comm, earlier _ (List.mem_map_of_mem isBefore) _ List.mem_cons_self]
      exact Bool.false_ne_true
    have noLater : (after.filter fun other => Path.crosses bind.target other.target) = [] := by
      rw [List.filter_eq_nil_iff]
      intro other isAfter
      rw [later _ (List.mem_map_of_mem isAfter)]
      exact Bool.false_ne_true
    rw [split, List.filter_append, List.filter_append, noMount, noEarlier, List.filter_cons,
      if_pos (crosses_self bind.target), noLater]
    rfl

end Crossing

/-- Where the binds of a service are made, all its files are shown exactly when none is at
the root and none is crossed. -/
theorem shown_iff {workDir : String} {appId : Uuid} {before after : Contents}
    (run : Runs Filing (buildServiceMounts workDir appId service).run before (.ok binds) after) :
    (∀ file ∈ service.files, Shown binds after file) ↔
      (∀ file ∈ service.files, Path.components file.path ≠ [.rootDir]) ∧
        Uncrossed (service.mounts.map (·.target)) (service.files.map (·.path)) := by
  obtain ⟨mounts, files, same, targets, bound⟩ := service_mounts_bound run
  have paths : files.map (·.target) = service.files.map (·.path) :=
    matched_keys bound fun file bind isBound => isBound.1
  rw [← targets, ← paths, ← filter_singleton_iff, same]
  constructor
  · intro shown
    refine ⟨fun file member => (shown file member).below, ?_⟩
    intro bind member
    obtain ⟨file, isFile, isBound⟩ := matched_right bound member
    obtain ⟨only, alone, -⟩ := (shown file isFile).alone
    rw [← isBound.1] at alone
    have itself : bind ∈ (mounts ++ files).filter fun other =>
        Path.crosses bind.target other.target :=
      List.mem_filter.mpr ⟨List.mem_append_right _ member, crosses_self _⟩
    rw [alone] at itself
    rw [alone, List.mem_singleton.mp itself]
  · rintro ⟨below, alone⟩ file member
    obtain ⟨bind, isBind, isBound⟩ := matched_left bound member
    refine ⟨below file member, bind, ?_, isBound⟩
    rw [← isBound.1]
    exact alone bind isBind

end Containr
