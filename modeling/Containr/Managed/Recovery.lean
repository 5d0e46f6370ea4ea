import Containr.Managed.Pitr

/-!
# What a failed recovery leaves

The data directory is renamed before the copy is made, and no later step brings it back.
-/

namespace Containr.Managed.Pitr

open Containr.Api.SharedMounts Containr.Managed.Databases

def FirstRefused : Replies → Prop
  | .refused _ _ :: _ => True
  | _ => False

instance (replies : Replies) : Decidable (FirstRefused replies) :=
  match replies with
  | [] => isFalse id
  | .done :: _ => isFalse id
  | .refused _ _ :: _ => isTrue trivial

theorem calling_done {Made : Type} {text : String} {before : Made} {next : Replies → Done Made}
    {replies : Replies} (accepted : ¬FirstRefused replies) :
    calling text before next replies = next replies.tail := by
  cases replies with
  | nil => rfl
  | cons reply rest =>
      cases reply with
      | done => rfl
      | refused message left => exact absurd trivial accepted

theorem calling_refused {Made : Type} {text : String} {before : Made} {next : Replies → Done Made}
    {replies : Replies} (refused : FirstRefused replies) :
    ∃ message, calling text before next replies = ⟨.error message, before, replies.tail⟩ := by
  cases replies with
  | nil => cases refused
  | cons reply rest =>
      cases reply with
      | done => cases refused
      | refused message left => exact ⟨failure text message, rfl⟩

theorem calling_made {Made : Type} (text : String) (before : Made) (next : Replies → Done Made)
    (replies : Replies) : (calling text before next replies).made =
      if FirstRefused replies then before else (next replies.tail).made := by
  by_cases refused : FirstRefused replies
  · have called := @calling_refused _ text before next _ refused
    obtain ⟨message, same⟩ := called
    rw [same, if_pos refused]
  · rw [calling_done refused, if_neg refused]

def IsDirectory : Entry → Prop
  | .directory _ => True
  | _ => False

theorem copy_directory_made (loop : Replies → Done Entries) (replies : Replies) :
    (copyDirectory loop replies).made = none ↔
      FirstRefused replies ∨ FirstRefused replies.tail := by
  unfold copyDirectory
  rw [calling_made, calling_made, calling_made]
  by_cases first : FirstRefused replies
  · simp [first]
  · by_cases second : FirstRefused replies.tail
    · simp [first, second]
    · by_cases third : FirstRefused replies.tail.tail <;> simp [first, second, third]

theorem copy_dir_recursive_made (path : List Path.Component) (backup : Entry) (replies : Replies) :
    (copyDirRecursive path backup replies).made = none ↔
      ¬IsDirectory backup ∨ FirstRefused replies ∨ FirstRefused replies.tail := by
  unfold copyDirRecursive
  cases backup with
  | directory entries =>
      have isDirectory : IsDirectory (.directory entries) := trivial
      simp only [isDirectory, not_true_eq_false, false_or]
      exact copy_directory_made _ replies
  | file bytes => simp [calling_made, IsDirectory]
  | link text => simp [calling_made, IsDirectory]
  | special => simp [calling_made, IsDirectory]

section Recovery

variable {Moment : Type} {toRfc3339 : Moment → String}

/-- Without a data directory there is none behind the calls only if the copy made none. -/
theorem restore_made (path : List Path.Component) (backup : Entry) (restorePoint : Option String)
    (targetTime : Option Moment) (replies : Replies)
    (started : Except (String × Option Entries) Unit) :
    (restore toRfc3339 path backup restorePoint targetTime replies started).2 = none ↔
      (copyDirRecursive path backup replies).made = none := by
  unfold restore
  simp only
  split
  · rfl
  · rename_i made
    simp [made]
  · rename_i made
    rw [made]
    split
    · simp
    · split <;> simp

def Host.withData (host : Host) (data : Option Entries) : Host := { host with data := data }

variable {db : PitrDatabase} {restorePoint : Option String} {targetTime : Option Moment}
  {answers : RecoveryAnswers} {host : Host} {backup : List Path.Component × Entry}

theorem stop_with_data (data : Option Entries) :
    stopForRecovery db restorePoint targetTime (host.withData data) answers =
      stopForRecovery db restorePoint targetTime host answers := rfl

theorem recover_not_stopped {message : String}
    (failed : stopForRecovery db restorePoint targetTime host answers = .error message) :
    recoverPostgresToTarget toRfc3339 db restorePoint targetTime answers host =
      (.error message, host) := by
  unfold recoverPostgresToTarget
  rw [failed]

theorem recover_refused {old : Entries}
    (stopped : stopForRecovery db restorePoint targetTime host answers = .ok backup)
    (held : host.data = some old) (refused : FirstRefused answers.replies) :
    ∃ message, recoverPostgresToTarget toRfc3339 db restorePoint targetTime answers host =
      (.error message, host) := by
  unfold recoverPostgresToTarget archiveExistingDataDir
  simp only [stopped, held]
  have called := @calling_refused Host "archive current data directory failed" host
    (fun rest => ⟨.ok (), { host with data := none, aside := host.aside ++ [old] }, rest⟩) _ refused
  obtain ⟨message, same⟩ := called
  rw [same]
  exact ⟨message, rfl⟩

/-- Behind the rename nothing looks at the old data again. -/
theorem recover_archived {old : Entries}
    (stopped : stopForRecovery db restorePoint targetTime host answers = .ok backup)
    (held : host.data = some old) (accepted : ¬FirstRefused answers.replies) :
    recoverPostgresToTarget toRfc3339 db restorePoint targetTime answers host =
      let restored := restore toRfc3339 backup.1 backup.2 restorePoint targetTime
        answers.replies.tail answers.started
      (restored.1, { host with data := restored.2, aside := host.aside ++ [old] }) := by
  unfold recoverPostgresToTarget archiveExistingDataDir
  simp only [stopped, held, calling_done accepted]

theorem recover_absent
    (stopped : stopForRecovery db restorePoint targetTime host answers = .ok backup)
    (absent : host.data = none) :
    recoverPostgresToTarget toRfc3339 db restorePoint targetTime answers host =
      let restored := restore toRfc3339 backup.1 backup.2 restorePoint targetTime
        answers.replies answers.started
      (restored.1, { host with data := restored.2 }) := by
  unfold recoverPostgresToTarget archiveExistingDataDir
  simp only [stopped, absent]

theorem recover_keeps_old {old : Entries} (held : host.data = some old) :
    let after := (recoverPostgresToTarget toRfc3339 db restorePoint targetTime answers host).2
    after = host ∨ after.aside = host.aside ++ [old] := by
  intro after
  cases stopped : stopForRecovery db restorePoint targetTime host answers with
  | error message =>
      left
      exact congrArg Prod.snd (recover_not_stopped stopped)
  | ok backup =>
      by_cases refused : FirstRefused answers.replies
      · left
        have call := @recover_refused _ toRfc3339 _ _ _ _ _ _ _ stopped held refused
        obtain ⟨message, same⟩ := call
        exact congrArg Prod.snd same
      · right
        exact congrArg (fun both => both.2.aside) (recover_archived stopped held refused)

variable (toRfc3339 db restorePoint targetTime answers host) in
def LeavesData : Prop :=
  ∀ data, data.isSome = host.data.isSome → ∀ message,
    (recoverPostgresToTarget toRfc3339 db restorePoint targetTime answers
      (host.withData data)).1 = .error message →
    (recoverPostgresToTarget toRfc3339 db restorePoint targetTime answers
      (host.withData data)).2.data = data

/-- What fails is the rename, or a call before the copy made its directory. -/
def Untouched (backup : Entry) (data : Option Entries) (replies : Replies) : Prop :=
  match data with
  | some _ => FirstRefused replies
  | none => ¬IsDirectory backup ∨ FirstRefused replies ∨ FirstRefused replies.tail

theorem other_data (data : Option Entries) : ∃ old : Entries, some old ≠ data := by
  by_cases empty : data = some .none
  · refine ⟨.more "" .special .none, ?_⟩
    rw [empty]
    simp
  · exact ⟨.none, Ne.symm empty⟩

/-- Failing calls that leave the data of every database as it was are those that did not rename it,
or had none to rename and made none. -/
theorem failed_recovery_leaves_data_iff {message : String}
    (failed : (recoverPostgresToTarget toRfc3339 db restorePoint targetTime answers host).1 =
      .error message) :
    LeavesData toRfc3339 db restorePoint targetTime answers host ↔
      (∃ reason, stopForRecovery db restorePoint targetTime host answers = .error reason) ∨
      ∃ backup, stopForRecovery db restorePoint targetTime host answers = .ok backup ∧
        Untouched backup.2 host.data answers.replies := by
  cases stopped : stopForRecovery db restorePoint targetTime host answers with
  | error reason =>
      have leaves : LeavesData toRfc3339 db restorePoint targetTime answers host := by
        intro data kind text again
        rw [recover_not_stopped ((stop_with_data data).trans stopped)]
        rfl
      simp [leaves]
  | ok backup =>
      have stoppedWith : ∀ data, stopForRecovery db restorePoint targetTime (host.withData data)
          answers = .ok backup := fun data => (stop_with_data data).trans stopped
      simp only [reduceCtorEq, exists_false, false_or, Except.ok.injEq, exists_eq_left']
      cases held : host.data with
      | none =>
          have call := @recover_absent _ toRfc3339 _ _ _ _ _ _ stopped held
          constructor
          · intro leaves
            have same := leaves host.data rfl message failed
            have whole : host.withData host.data = host := rfl
            rw [whole, call, held, restore_made, copy_dir_recursive_made] at same
            exact same
          · intro untouched data kind text again
            have absent : data = none := by simpa [held] using kind
            rw [recover_absent (stoppedWith data) absent, absent]
            exact (restore_made _ _ _ _ _ _).mpr ((copy_dir_recursive_made _ _ _).mpr untouched)
      | some old =>
          constructor
          · intro leaves
            by_contra accepted
            have call := @recover_archived _ toRfc3339 _ _ _ _ _ _ _ stopped held accepted
            obtain ⟨other, differs⟩ := other_data (restore toRfc3339 backup.1 backup.2 restorePoint
              targetTime answers.replies.tail answers.started).2
            have callOther := @recover_archived _ toRfc3339 _ _ _ _ _ _ _ (stoppedWith (some other))
              rfl accepted
            have same := leaves (some other) (by simp [held]) message (by
              rw [callOther]
              rw [call] at failed
              exact failed)
            rw [callOther] at same
            exact differs same.symm
          · intro refused data kind text again
            obtain ⟨other, isOther⟩ := Option.isSome_iff_exists.mp (kind.trans (by simp [held]))
            have called := @recover_refused _ toRfc3339 _ _ _ _ _ _ _ (stoppedWith data) isOther
              refused
            obtain ⟨text, same⟩ := called
            rw [same]
            rfl

end Recovery

def demoPitrDatabase : PitrDatabase where
  toManagedDatabase := { ManagedDatabase.newWithPath ⟨7⟩ ⟨1⟩ "orders" .postgresql "/data" with
    pitrEnabled := true }
  pitrLastBaseBackupAt := some 0
  pitrLastBaseBackupLabel := some "nightly"
  updatedAt := 0

def demoBackup : Entry :=
  .directory (.more "PG_VERSION" (.file "16") (.more "backup_label" (.file "START") .none))

def demoHost : Host where
  data := some (.more "PG_VERSION" (.file "16") (.more "orders" (.file "rows") .none))
  aside := []
  backups := fun label => if label = "nightly" then some demoBackup else none

/-- The second file of the backup cannot be copied. -/
def demoAnswers : RecoveryAnswers where
  running := false
  switched := .ok ()
  synced := .ok ()
  stopped := .ok ()
  replies := [.done, .done, .done, .done, .done, .done, .done, .done, .done,
    .refused "No space left on device" none]
  started := .ok ()

theorem demo_recovery_made : (recoverPostgresToTarget Text.toRfc3339 demoPitrDatabase
    (some "before") none demoAnswers demoHost).2.data =
      some (.more "PG_VERSION" (.file "16") .none) := by
  rfl

theorem demo_recovery_fails : ∃ message, (recoverPostgresToTarget Text.toRfc3339 demoPitrDatabase
    (some "before") none demoAnswers demoHost).1 = .error message := ⟨_, rfl⟩

theorem demo_failed_recovery_leaves_data :
    LeavesData Text.toRfc3339 demoPitrDatabase (some "before") none demoAnswers demoHost ↔
      (∃ reason, stopForRecovery demoPitrDatabase (some "before") (none : Option Time) demoHost
        demoAnswers = .error reason) ∨
      ∃ backup, stopForRecovery demoPitrDatabase (some "before") (none : Option Time) demoHost
        demoAnswers = .ok backup ∧ Untouched backup.2 demoHost.data demoAnswers.replies :=
  demo_recovery_fails.elim fun _ failed => failed_recovery_leaves_data_iff failed

/-- What is there then is the part of the backup that was copied. -/
theorem refused_copy_leaves_half :
    ((recoverPostgresToTarget Text.toRfc3339 demoPitrDatabase (some "before") none demoAnswers
      demoHost).1.isOk = false) ∧
    (recoverPostgresToTarget Text.toRfc3339 demoPitrDatabase (some "before") none demoAnswers
      demoHost).2.data ≠ demoHost.data := by
  constructor
  · rfl
  · rw [demo_recovery_made]
    decide

end Containr.Managed.Pitr
