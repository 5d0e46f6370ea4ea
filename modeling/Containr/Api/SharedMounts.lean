import Containr.Api.Services
import Containr.Patches

/-!
# Volumes on disk

The file system steps of `containr-api/src/domain/services/shared_mounts.rs`. The content of a
volume is what its directory lists: names, bytes and the texts of links. Owners and permission
bits are no part of it, but the calls that set them can fail as every other call can. A special
file is a socket, a pipe or a device, which `fs::copy` does not take.
-/

namespace Containr.Api.SharedMounts

open Containr.Effect Containr.Effect.Program Containr.Api.Services
open Containr.Patches (relocate)

mutual

inductive Entry where
  | file (bytes : String)
  | link (text : String)
  | special
  | directory (entries : Entries)

/-- The entries of a directory in the order `read_dir` gives them. -/
inductive Entries where
  | none
  | more (name : String) (entry : Entry) (rest : Entries)

end

deriving instance DecidableEq for Entry, Entries

def Entries.isEmpty : Entries → Bool
  | .none => true
  | .more _ _ _ => false

variable {entries : Entries}

@[simp] theorem Entries.is_empty_iff : entries.isEmpty = true ↔ entries = .none := by
  cases entries with
  | none => simp [Entries.isEmpty]
  | more name entry rest => simp [Entries.isEmpty]

/-- How a call ends. A file copy that is cut short may leave a file with some bytes. -/
inductive Outcome where
  | done
  | refused (left : Option String)
deriving DecidableEq

/-- The outcomes of the calls to come. Once they are used up every call is done. -/
abbrev Outcomes : Type := List Outcome

def calls : Nat → Outcomes → Bool × Outcomes
  | 0, outcomes => (true, outcomes)
  | _ + 1, [] => (true, [])
  | count + 1, .done :: rest => calls count rest
  | _ + 1, .refused _ :: rest => (false, rest)

/-- What a copy has made, whether it went through, and the outcomes it left. -/
structure Copied (Made : Type) where
  made : Made
  finished : Bool
  outcomes : Outcomes

/-- `fs::copy`, then the owner is read and set. -/
def copyFile (bytes : String) (outcomes : Outcomes) : Copied (Option Entry) :=
  match outcomes with
  | .refused left :: rest => ⟨left.map Entry.file, false, rest⟩
  | [] | .done :: _ =>
      let owned := calls 2 outcomes.tail
      ⟨some (.file bytes), owned.1, owned.2⟩

/-- `read_link` and `symlink`, then the owner is read and set. -/
def copyLink (text : String) (outcomes : Outcomes) : Copied (Option Entry) :=
  let linked := calls 2 outcomes
  if linked.1 then
    let owned := calls 2 linked.2
    ⟨some (.link text), owned.1, owned.2⟩
  else ⟨none, false, linked.2⟩

/-- The calls of `copy_dir_all` around its loop: `symlink_metadata` and `create_dir_all`, then
`read_dir`; after the loop the permissions and the owner. -/
def copyDirectory (loop : Outcomes → Copied Entries) (outcomes : Outcomes) :
    Copied (Option Entries) :=
  let created := calls 2 outcomes
  if created.1 then
    let opened := calls 1 created.2
    if opened.1 then
      let listed := loop opened.2
      if listed.finished then
        let owned := calls 2 listed.outcomes
        ⟨some listed.made, owned.1, owned.2⟩
      else ⟨some listed.made, false, listed.outcomes⟩
    else ⟨some .none, false, opened.2⟩
  else ⟨none, false, created.2⟩

mutual

def copyEntry : Entry → Outcomes → Copied (Option Entry)
  | .file bytes, outcomes => copyFile bytes outcomes
  | .link text, outcomes => copyLink text outcomes
  | .special, outcomes => ⟨none, false, outcomes.tail⟩
  | .directory entries, outcomes =>
      let copied := copyDirectory (copyEntries entries) outcomes
      ⟨copied.made.map Entry.directory, copied.finished, copied.outcomes⟩

/-- The loop over `read_dir`; each turn reads the entry and its type, the last read finds the
end. -/
def copyEntries : Entries → Outcomes → Copied Entries
  | .none, outcomes =>
      let ended := calls 1 outcomes
      ⟨.none, ended.1, ended.2⟩
  | .more name entry rest, outcomes =>
      let read := calls 2 outcomes
      if read.1 then
        let copied := copyEntry entry read.2
        if copied.finished then
          let others := copyEntries rest copied.outcomes
          match copied.made with
          | some made => ⟨.more name made others.made, others.finished, others.outcomes⟩
          | none => others
        else
          match copied.made with
          | some made => ⟨.more name made .none, false, copied.outcomes⟩
          | none => ⟨.none, false, copied.outcomes⟩
      else ⟨.none, false, read.2⟩

end

/-- `copy_dir_all` into a directory that is missing or empty. -/
def copyDirAll (entries : Entries) (outcomes : Outcomes) : Copied (Option Entries) :=
  copyDirectory (copyEntries entries) outcomes

/-! A copy that goes through is the copied directory. -/

variable {outcomes : Outcomes}

theorem copy_file_finished {bytes : String} (finished : (copyFile bytes outcomes).finished = true) :
    (copyFile bytes outcomes).made = some (.file bytes) := by
  unfold copyFile at finished ⊢
  cases outcomes with
  | nil => rfl
  | cons outcome rest =>
      cases outcome with
      | done => rfl
      | refused left => cases finished

theorem copy_link_finished {text : String} (finished : (copyLink text outcomes).finished = true) :
    (copyLink text outcomes).made = some (.link text) := by
  unfold copyLink at finished ⊢
  dsimp only at finished ⊢
  split_ifs at finished ⊢ with linked
  rfl

theorem copy_directory_finished {loop : Outcomes → Copied Entries}
    (faithful : ∀ outcomes, (loop outcomes).finished = true → (loop outcomes).made = entries)
    (finished : (copyDirectory loop outcomes).finished = true) :
    (copyDirectory loop outcomes).made = some entries := by
  unfold copyDirectory at finished ⊢
  dsimp only at finished ⊢
  split_ifs at finished ⊢ with created opened listed
  exact congrArg some (faithful _ listed)

mutual

theorem copy_entry_finished (entry : Entry) {outcomes : Outcomes}
    (finished : (copyEntry entry outcomes).finished = true) :
    (copyEntry entry outcomes).made = some entry := by
  cases entry with
  | file bytes =>
      rw [copyEntry] at finished ⊢
      exact copy_file_finished finished
  | link text =>
      rw [copyEntry] at finished ⊢
      exact copy_link_finished finished
  | special =>
      rw [copyEntry] at finished
      cases finished
  | directory entries =>
      rw [copyEntry] at finished ⊢
      have copied : (copyDirectory (copyEntries entries) outcomes).made = some entries :=
        copy_directory_finished (fun _ => copy_entries_finished entries) finished
      dsimp only
      rw [copied]
      rfl

theorem copy_entries_finished (entries : Entries) {outcomes : Outcomes}
    (finished : (copyEntries entries outcomes).finished = true) :
    (copyEntries entries outcomes).made = entries := by
  cases entries with
  | none => rfl
  | more name entry rest =>
      rw [copyEntries] at finished ⊢
      dsimp only at finished ⊢
      by_cases read : (calls 2 outcomes).1 = true
      · rw [if_pos read] at finished ⊢
        by_cases copied : (copyEntry entry (calls 2 outcomes).2).finished = true
        · have made := copy_entry_finished entry copied
          rw [if_pos copied, made] at finished ⊢
          dsimp only at finished ⊢
          rw [copy_entries_finished rest finished]
        · rw [if_neg copied] at finished
          split at finished
          · cases finished
          · cases finished
      · rw [if_neg read] at finished
        cases finished

end

theorem copy_dir_all_finished (finished : (copyDirAll entries outcomes).finished = true) :
    (copyDirAll entries outcomes).made = some entries :=
  copy_directory_finished (fun _ => copy_entries_finished entries) finished

/-- The directories by their paths. -/
abbrev Disk : Type := String → Option Entries

def Disk.content (disk : Disk) (path : String) : Entries := (disk path).getD .none

/-- `rename` of a directory, to a path that is missing or an empty directory. -/
def rename (source target : String) (disk : Disk) : Option Disk :=
  match disk source with
  | none => none
  | some entries =>
      if (disk.content target).isEmpty then
        some (Function.update (Function.update disk target (some entries)) source none)
      else none

/-- `remove_dir`; a missing directory is no error. -/
def removeDir (path : String) (disk : Disk) : Option Disk :=
  if (disk.content path).isEmpty then some (Function.update disk path none) else none

def moveDir (source target : String) (outcomes : Outcomes) (disk : Disk) : Bool × Disk :=
  if (calls 2 outcomes).1 then
    match removeDir target disk with
    | none => (false, disk)
    | some cleared =>
        if (calls 1 (calls 2 outcomes).2).1 then
          match rename source target cleared with
          | none => (false, cleared)
          | some moved => (true, moved)
        else (false, cleared)
  else (false, disk)

/-- What the file system does at a call; `spilled` is what a copy leaves in a directory that
had entries. -/
structure Faults where
  outcomes : Outcomes
  spilled : Entries

def copyDir (source target : String) (faults : Faults) (disk : Disk) : Bool × Disk :=
  match disk source with
  | none => (false, disk)
  | some entries =>
      if (disk.content target).isEmpty then
        let copied := copyDirAll entries faults.outcomes
        match copied.made with
        | none => (copied.finished, disk)
        | some made => (copied.finished, Function.update disk target (some made))
      else ((calls 1 faults.outcomes).1, Function.update disk target (some faults.spilled))

/-- `is_empty_dir` when `read_dir` succeeds. Where the listing is broken its first entry is an
error, which is an entry too. -/
def Disk.listedEmpty (disk : Disk) (broken : String → Bool) (path : String) : Bool :=
  match disk path with
  | none => true
  | some entries => entries.isEmpty && !broken path

/-! What each step does to the contents. -/

theorem Disk.content_update (disk : Disk) (path : String) (entries : Option Entries) :
    Disk.content (Function.update disk path entries) =
      Function.update disk.content path (entries.getD .none) := by
  funext other
  unfold Disk.content
  by_cases same : other = path
  · rw [same, Function.update_self, Function.update_self]
  · rw [Function.update_of_ne same, Function.update_of_ne same]

variable {disk : Disk}

theorem rename_content {source target : String} {moved : Disk}
    (renamed : rename source target disk = some moved) :
    moved.content = relocate .none source target disk.content := by
  unfold rename at renamed
  split at renamed
  · cases renamed
  · rename_i entries present
    split_ifs at renamed with room
    cases renamed
    have whole : disk.content source = entries := by
      unfold Disk.content
      rw [present]
      rfl
    unfold relocate
    rw [Disk.content_update, Disk.content_update, whole]
    rfl

theorem remove_dir_content {path : String} {cleared : Disk}
    (removed : removeDir path disk = some cleared) : cleared.content = disk.content := by
  unfold removeDir at removed
  split_ifs at removed with empty
  cases removed
  have nothing : disk.content path = .none := Entries.is_empty_iff.mp empty
  rw [Disk.content_update]
  exact Function.update_eq_self_iff.mpr nothing.symm

theorem move_dir_content {source target : String} {after : Disk} {succeeded : Bool}
    (moved : moveDir source target outcomes disk = (succeeded, after)) : after.content =
      if succeeded then relocate .none source target disk.content else disk.content := by
  unfold moveDir at moved
  by_cases prepared : (calls 2 outcomes).1 = true
  · rw [if_pos prepared] at moved
    cases removed : removeDir target disk with
    | none =>
        rw [removed] at moved
        cases moved
        rfl
    | some cleared =>
        have same := remove_dir_content removed
        rw [removed] at moved
        dsimp only at moved
        by_cases admitted : (calls 1 (calls 2 outcomes).2).1 = true
        · rw [if_pos admitted] at moved
          cases renamed : rename source target cleared with
          | none =>
              rw [renamed] at moved
              cases moved
              exact same
          | some relocated =>
              rw [renamed] at moved
              cases moved
              rw [if_pos rfl, ← same]
              exact rename_content renamed
        · rw [if_neg admitted] at moved
          cases moved
          exact same
  · rw [if_neg prepared] at moved
    cases moved
    rfl

/-- A copy into an empty volume changes nothing else, and makes all of the source unless it
fails. -/
theorem copy_dir_content (source target : String) (faults : Faults)
    (room : disk.content target = .none) : (copyDir source target faults disk).2.content =
        Function.update disk.content target ((copyDir source target faults disk).2.content target) ∧
      ((copyDir source target faults disk).1 = true →
        (copyDir source target faults disk).2.content target = disk.content source) := by
  have empty : (disk.content target).isEmpty = true := Entries.is_empty_iff.mpr room
  unfold copyDir
  cases present : disk source with
  | none =>
      constructor
      · exact (Function.update_eq_self _ _).symm
      · intro finished
        cases finished
  | some entries =>
      have whole : disk.content source = entries := by
        unfold Disk.content
        rw [present]
        rfl
      dsimp only
      rw [if_pos empty, whole]
      cases made : (copyDirAll entries faults.outcomes).made with
      | none =>
          constructor
          · exact (Function.update_eq_self _ _).symm
          · intro finished
            rw [copy_dir_all_finished finished] at made
            cases made
      | some copied =>
          dsimp only
          rw [Disk.content_update, Function.update_self]
          constructor
          · rfl
          · intro finished
            rw [copy_dir_all_finished finished] at made
            cases made
            rfl

theorem Disk.listed_empty {broken : String → Bool} {path : String}
    (listed : disk.listedEmpty broken path = true) : disk.content path = .none := by
  unfold Disk.listedEmpty at listed
  unfold Disk.content
  cases present : disk path with
  | none => rfl
  | some entries =>
      rw [present, Bool.and_eq_true] at listed
      exact Entries.is_empty_iff.mp listed.1

/-- What went wrong since the update began: a listing, a migration or the save failed; a copy
put an entry into a volume; a volume with entries was not moved back. -/
structure Mishaps where
  failed : Bool
  copied : Bool
  stranded : Bool
deriving DecidableEq

def Mishaps.none : Mishaps := ⟨false, false, false⟩

structure Volumes where
  disk : Disk
  mishaps : Mishaps

def Volumes.untouched (disk : Disk) : Volumes := ⟨disk, .none⟩

namespace Volumes

def noted (succeeded : Bool) (volumes : Volumes) : Volumes :=
  { volumes with mishaps :=
    { volumes.mishaps with failed := volumes.mishaps.failed || !succeeded } }

def answer (succeeded : Bool) : Except String Unit :=
  if succeeded then .ok () else .error "refused"

def list (broken : String → Bool) (path : String) (faults : Faults) (volumes : Volumes) :
    Except String Bool × Volumes :=
  if (calls 1 faults.outcomes).1 then (.ok (volumes.disk.listedEmpty broken path), volumes)
  else (.error "refused", volumes.noted false)

def move (source target : String) (faults : Faults) (volumes : Volumes) :
    Except String Unit × Volumes :=
  let moved := moveDir source target faults.outcomes volumes.disk
  (answer moved.1, { volumes.noted moved.1 with disk := moved.2 })

def copy (source target : String) (faults : Faults) (volumes : Volumes) :
    Except String Unit × Volumes :=
  let copied := copyDir source target faults volumes.disk
  (answer copied.1,
    { disk := copied.2
      mishaps := { (volumes.noted copied.1).mishaps with
        copied := volumes.mishaps.copied || !(copied.2.content target).isEmpty } })

def back (source target : String) (faults : Faults) (volumes : Volumes) :
    Except String Unit × Volumes :=
  match if (calls 1 faults.outcomes).1 then rename source target volumes.disk else none with
  | some disk => (.ok (), { volumes with disk := disk })
  | none => (.error "refused", { volumes with mishaps :=
      { volumes.mishaps with
        stranded := volumes.mishaps.stranded || !(volumes.disk.content source).isEmpty } })

/-- The four steps on volumes; what other calls answer is left open. -/
def exec (broken : String → Bool) : (op : Op) → op.Answer × Faults → Volumes → op.Answer × Volumes
  | .external (.isEmptyDir path), choice, volumes => volumes.list broken path choice.2
  | .external (.moveDir source target), choice, volumes => volumes.move source target choice.2
  | .external (.copyDir source target), choice, volumes => volumes.copy source target choice.2
  | .external (.rename source target), choice, volumes => volumes.back source target choice.2
  | .write _, choice, volumes => (choice.1, volumes.noted (Except.isOk choice.1))
  | _, choice, volumes => (choice.1, volumes)

/-- The file system of one update. A directory is listed once, so that its listing breaks off
or does not. -/
def machine (broken : String → Bool) : Machine Effects Volumes where
  Choice op := op.Answer × Faults
  exec := exec broken
  Admits _ _ _ := True

variable {broken : String → Bool}

@[simp] theorem noted_true (volumes : Volumes) : volumes.noted true = volumes := by
  simp [noted]

def Listed (broken : String → Bool) (path : String) (before : Volumes) :
    Except ApiError Bool → Volumes → Prop
  | .ok empty, after => after = before ∧ empty = before.disk.listedEmpty broken path
  | .error _, after => after = before.noted false

def Moved (source target : String) (before : Volumes) : Except String Unit → Volumes → Prop
  | .ok (), after => after.mishaps = before.mishaps ∧
      after.disk.content = relocate .none source target before.disk.content
  | .error _, after => after.mishaps = (before.noted false).mishaps ∧
      after.disk.content = before.disk.content

/-- The copy puts `made` into the target. -/
def Filled (target : String) (made : Entries) (succeeded : Bool) (before after : Volumes) : Prop :=
  after.disk.content = Function.update before.disk.content target made ∧
    after.mishaps = { (before.noted succeeded).mishaps with
      copied := before.mishaps.copied || !made.isEmpty }

def CopiedTo (source target : String) (before : Volumes) : Except String Unit → Volumes → Prop
  | .ok (), after => Filled target (before.disk.content source) true before after
  | .error _, after => ∃ made, Filled target made false before after

def Returned (source target : String) (before : Volumes) : Except String Unit → Volumes → Prop
  | .ok (), after => after.mishaps = before.mishaps ∧
      after.disk.content = relocate .none source target before.disk.content
  | .error _, after => after.disk = before.disk ∧
      after.mishaps = { before.mishaps with
        stranded := before.mishaps.stranded || !(before.disk.content source).isEmpty }

def Saved (before : Volumes) (result : Except String Unit) (after : Volumes) : Prop :=
  after = before.noted (Except.isOk result)

theorem is_empty_dir_ensures (path : String) (before : Volumes) :
    (isEmptyDir path).run.Ensures (machine broken).can (Listed broken path before) before := by
  apply or_internal_always.mpr
  apply always_op trivial
  intro result after possible
  obtain ⟨choice, -, executed⟩ := possible
  have listed : before.list broken path choice.2 = (result, after) := executed
  unfold list at listed
  split_ifs at listed with read
  · cases listed
    exact ⟨rfl, rfl⟩
  · cases listed
    exact rfl

theorem run_move_ensures (source target : String) (before : Volumes) :
    (runMigration (.moveToShared source target)).Ensures (machine broken).can
      (Moved source target before) before := by
  apply always_op trivial
  intro result after possible
  obtain ⟨choice, -, executed⟩ := possible
  have moved : before.move source target choice.2 = (result, after) := executed
  unfold move at moved
  cases run : moveDir source target choice.2.outcomes before.disk with
  | mk succeeded disk =>
      have content := move_dir_content run
      rw [run] at moved
      cases moved
      cases succeeded with
      | true => exact ⟨by simp [noted], content⟩
      | false => exact ⟨rfl, content⟩

theorem run_copy_ensures {source target : String} {before : Volumes}
    (room : before.disk.content target = .none) :
    (runMigration (.copyFromShared source target)).Ensures (machine broken).can
      (CopiedTo source target before) before := by
  apply always_op trivial
  intro result after possible
  obtain ⟨choice, -, executed⟩ := possible
  have copied : before.copy source target choice.2 = (result, after) := executed
  have content := copy_dir_content source target choice.2 room
  unfold copy at copied
  cases run : copyDir source target choice.2 before.disk with
  | mk succeeded disk =>
      rw [run] at copied content
      cases copied
      cases succeeded with
      | true =>
          have whole : disk.content target = before.disk.content source := content.2 rfl
          rw [whole] at content
          exact ⟨content.1, by rw [whole]⟩
      | false => exact ⟨disk.content target, content.1, rfl⟩

theorem rename_ensures (source target : String) (before : Volumes) :
    (external (.rename source target)).Ensures (machine broken).can
      (Returned source target before) before := by
  apply always_op trivial
  intro result after possible
  obtain ⟨choice, -, executed⟩ := possible
  have returned : before.back source target choice.2 = (result, after) := executed
  unfold back at returned
  split at returned
  · rename_i disk renamed
    cases returned
    split_ifs at renamed
    exact ⟨rfl, rename_content renamed⟩
  · cases returned
    exact ⟨rfl, rfl⟩

theorem save_app_ensures (app : App) (before : Volumes) :
    (Store.saveApp app).run.Ensures (machine broken).can (Saved before) before := by
  apply always_op trivial
  intro result after possible
  obtain ⟨choice, -, executed⟩ := possible
  have saved : ((choice.1, before.noted (Except.isOk choice.1)) : _ × Volumes) = (result, after) :=
    executed
  cases saved
  exact rfl

theorem utc_now_ensures (before : Volumes) :
    utcNow.Ensures (machine broken).can (fun _ after => after = before) before := by
  apply always_op trivial
  intro result after possible
  obtain ⟨choice, -, executed⟩ := possible
  have unchanged : ((choice.1, before) : _ × Volumes) = (result, after) := executed
  cases unchanged
  rfl

end Volumes

end Containr.Api.SharedMounts
