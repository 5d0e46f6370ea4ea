import Containr.Managed.Recovery

/-!
# Base backups over several calls

A run of `create_postgres_base_backup` calls, with the backups of those that went through. The
directory of a label is removed before its new backup is taken, and the record keeps its label.
-/

namespace Containr.Managed.Pitr

open Containr.Api.SharedMounts Containr.Managed.Databases

structure BackupCall where
  requested : Option String
  answers : BackupAnswers

structure Backups where
  db : PitrDatabase
  host : Host
  taken : List (String × Entry)

/-- The backup of a call that goes through is what `pg_basebackup` wrote. -/
def Backups.call (state : Backups) (call : BackupCall) : Backups :=
  let called := createPostgresBaseBackup state.db call.requested call.answers state.host
  match called.1, call.answers.basebackup with
  | .ok (label, _), .ok entry => ⟨called.2.1, called.2.2, state.taken ++ [(label, entry)]⟩
  | _, _ => ⟨called.2.1, called.2.2, state.taken⟩

def Backups.run (state : Backups) (calls : List BackupCall) : Backups := calls.foldl Backups.call state

/-- The recorded backup is there, as a call that went through took it. -/
def Backups.Usable (state : Backups) : Prop :=
  state.taken ≠ [] → ∃ label entry,
    latestBaseBackupDir state.db state.host = .ok (state.db.backupDir label, entry) ∧
    (label, entry) ∈ state.taken

/-- What a call for a label leaves once it touches the directory: this directory, as nothing of it
could be removed, or a backup that is whole and opened up. -/
def Harmless (label : String) (answers : BackupAnswers) (host : Host) : Prop :=
  match host.backups label, answers.removed with
  | some entry, .error (_, left) => left = entry
  | _, _ => answers.basebackup.isOk = true ∧ answers.normalized.isOk = true

/-- Once a backup was taken, a call for the recorded label is refused by the checks or is harmless. -/
def Backups.Spares (state : Backups) (call : BackupCall) : Prop :=
  state.taken ≠ [] → ∀ label, openBackup state.db call.requested call.answers = .ok label →
    state.db.pitrLastBaseBackupLabel = some label → Harmless label call.answers state.host

def Backups.SparesAll : Backups → List BackupCall → Prop
  | _, [] => True
  | state, call :: calls => state.Spares call ∧ (state.call call).SparesAll calls

theorem set_backup_same (host : Host) (label : String) (entry : Option Entry) :
    (host.setBackup label entry).backups label = entry := by
  simp [Host.setBackup]

variable {host : Host} {label : String}

theorem set_backup_other {other : String} (differs : other ≠ label) (entry : Option Entry) :
    (host.setBackup label entry).backups other = host.backups other := by
  simp [Host.setBackup, differs]

theorem take_backup_other {other : String} (differs : other ≠ label) (answers : BackupAnswers)
    (host : Host) : (takeBackup label answers host).2.backups other = host.backups other := by
  unfold takeBackup
  split
  · exact set_backup_other differs _
  · split <;> exact set_backup_other differs _

/-- One that goes through leaves what was taken under the label. -/
theorem take_backup_ok {answers : BackupAnswers} (ok : (takeBackup label answers host).1 = .ok ()) :
    ∃ entry, answers.basebackup = .ok entry ∧
      (takeBackup label answers host).2.backups label = some entry := by
  unfold takeBackup at ok ⊢
  split at ok
  · cases ok
  · cases taken : answers.basebackup with
    | error failed => simp [taken] at ok
    | ok entry => exact ⟨entry, rfl, set_backup_same _ _ _⟩

variable {message : String}

theorem take_backup_harmless {answers : BackupAnswers} (harmless : Harmless label answers host)
    (failed : (takeBackup label answers host).1 = .error message) :
    (takeBackup label answers host).2.backups label = host.backups label := by
  unfold Harmless at harmless
  split at harmless
  · rename_i entry text left held removed
    have kept : (takeBackup label answers host).2 = host.setBackup label (some left) := by
      simp [takeBackup, held, removed]
    rw [kept, set_backup_same, held, harmless]
  · unfold takeBackup at failed ⊢
    split at failed
    · rename_i other _ _ entry text left held removed
      exact absurd removed (other entry text left held)
    · obtain ⟨filled, opened⟩ := harmless
      cases taken : answers.basebackup with
      | error failed =>
          rw [taken] at filled
          cases filled
      | ok entry =>
          simp only [taken] at failed
          rw [failed] at opened
          cases opened

theorem latest_base_backup_iff {db : PitrDatabase} {path : List Path.Component} {entry : Entry} :
    latestBaseBackupDir db host = .ok (path, entry) ↔
      ∃ label, db.pitrLastBaseBackupLabel = some label ∧ host.backups label = some entry ∧
        db.backupDir label = path := by
  unfold latestBaseBackupDir
  cases recorded : db.pitrLastBaseBackupLabel with
  | none => simp
  | some label =>
      cases held : host.backups label with
      | none => simp [held]
      | some other =>
          simp [held]
          exact And.comm

theorem backup_dir_inj {db : PitrDatabase} {left right : String}
    (same : db.backupDir left = db.backupDir right) : left = right := by
  have last := List.append_cancel_left same
  simp only [List.cons.injEq, Path.Component.normal.injEq, and_true] at last
  exact String.toList_injective last

variable {state : Backups}

theorem call_refused {call : BackupCall}
    (refused : openBackup state.db call.requested call.answers = .error message) :
    state.call call = state := by
  unfold Backups.call createPostgresBaseBackup
  simp only [refused]

theorem call_failed {call : BackupCall}
    (opened : openBackup state.db call.requested call.answers = .ok label)
    (failed : (takeBackup label call.answers state.host).1 = .error message) : state.call call =
      { state with host := (takeBackup label call.answers state.host).2 } := by
  unfold Backups.call createPostgresBaseBackup
  simp only [opened]
  cases work : takeBackup label call.answers state.host with
  | mk result after =>
      rw [work] at failed
      simp only at failed
      simp only [failed]

theorem call_done {call : BackupCall} {entry : Entry}
    (opened : openBackup state.db call.requested call.answers = .ok label)
    (done : (takeBackup label call.answers state.host).1 = .ok ())
    (taken : call.answers.basebackup = .ok entry) :
    (state.call call).db.pitrLastBaseBackupLabel = some label ∧
      (state.call call).host = (takeBackup label call.answers state.host).2 ∧
      (state.call call).taken = state.taken ++ [(label, entry)] := by
  unfold Backups.call createPostgresBaseBackup
  simp only [opened]
  cases work : takeBackup label call.answers state.host with
  | mk result after =>
      rw [work] at done
      simp only at done
      simp only [done, taken, and_self]

theorem Backups.usable_iff : state.Usable ↔ (state.taken ≠ [] →
    ∃ label entry, state.db.pitrLastBaseBackupLabel = some label ∧
      state.host.backups label = some entry ∧ (label, entry) ∈ state.taken) := by
  unfold Backups.Usable
  constructor
  · intro usable some
    obtain ⟨label, entry, latest, member⟩ := usable some
    obtain ⟨recorded, isRecorded, held, samePath⟩ := latest_base_backup_iff.mp latest
    rw [backup_dir_inj samePath] at isRecorded held
    exact ⟨label, entry, isRecorded, held, member⟩
  · intro usable some
    obtain ⟨label, entry, recorded, held, member⟩ := usable some
    have latest := latest_base_backup_iff.mpr ⟨label, recorded, held, rfl⟩
    exact ⟨label, entry, latest, member⟩

theorem Backups.usable_call {call : BackupCall} (usable : state.Usable) (spares : state.Spares call)
    : (state.call call).Usable := by
  cases opened : openBackup state.db call.requested call.answers with
  | error message =>
      rw [call_refused opened]
      exact usable
  | ok label =>
      cases result : (takeBackup label call.answers state.host).1 with
      | error message =>
          rw [usable_iff] at usable ⊢
          rw [call_failed opened result]
          intro some
          obtain ⟨recorded, entry, isRecorded, held, member⟩ := usable some
          refine ⟨recorded, entry, isRecorded, ?_, member⟩
          by_cases same : recorded = label
          · rw [same] at isRecorded held ⊢
            rw [take_backup_harmless (spares some label opened isRecorded) result]
            exact held
          · rw [take_backup_other same]
            exact held
      | ok done =>
          rw [usable_iff]
          intro some
          obtain ⟨entry, taken, held⟩ := take_backup_ok result
          obtain ⟨isRecorded, isHost, isTaken⟩ := call_done opened result taken
          refine ⟨label, entry, isRecorded, ?_, ?_⟩
          · rw [isHost]
            exact held
          · rw [isTaken]
            simp

theorem Backups.usable_run {calls : List BackupCall} (usable : state.Usable)
    (spares : state.SparesAll calls) :
    ∀ reached, reached <+: calls → (state.run reached).Usable := by
  induction calls generalizing state with
  | nil =>
      intro reached isStart
      rw [List.prefix_nil.mp isStart]
      exact usable
  | cons call rest ih =>
      intro reached isStart
      cases reached with
      | nil => exact usable
      | cons first others =>
          have both := List.cons_prefix_cons.mp isStart
          rw [both.1]
          exact ih (usable_call usable spares.1) spares.2 others both.2

/-- Once a backup was taken in a run whose calls spare what is there, every state of it has one. -/
theorem base_backup_usable {state : Backups} (fresh : state.taken = []) {calls : List BackupCall}
    (spares : state.SparesAll calls) :
    ∀ reached, reached <+: calls → (state.run reached).Usable :=
  Backups.usable_run (fun some => absurd fresh some) spares

def freshBackups : Backups where
  db := { demoPitrDatabase with pitrLastBaseBackupAt := none, pitrLastBaseBackupLabel := none }
  host := { data := some .none, aside := [], backups := fun _ => none }
  taken := []

def nightlyCall (basebackup : Except (String × Option Entry) Entry) : BackupCall where
  requested := some "Nightly"
  answers :=
    { running := true, prepared := .ok (), now := 0, removed := .ok (), basebackup := basebackup,
      normalized := .ok (), finished := 0 }

def failedBackup : Except (String × Option Entry) Entry := .error ("operation failed", none)

theorem nightly_harmless (label : String) (entry : Entry) (host : Host) :
    Harmless label (nightlyCall (.ok entry)).answers host := by
  unfold Harmless
  cases host.backups label <;> exact ⟨rfl, rfl⟩

/-- The same label twice, and both backups are made. -/
theorem demo_base_backup_usable :
    freshBackups.taken = [] ∧ ∀ reached,
      reached <+: [nightlyCall (.ok demoBackup), nightlyCall (.ok demoBackup)] →
      (freshBackups.run reached).Usable :=
  ⟨rfl, base_backup_usable rfl
    ⟨fun none => absurd rfl none, fun _ label _ _ => nightly_harmless label _ _, trivial⟩⟩

theorem failed_backup_removes_last :
    ¬(freshBackups.run [nightlyCall (.ok demoBackup), nightlyCall failedBackup]).Usable := by
  intro usable
  obtain ⟨label, entry, latest, -⟩ := usable (by decide)
  have missing : latestBaseBackupDir
      (freshBackups.run [nightlyCall (.ok demoBackup), nightlyCall failedBackup]).db
      (freshBackups.run [nightlyCall (.ok demoBackup), nightlyCall failedBackup]).host =
        .error "operation failed: latest base backup directory is missing" := by
    rfl
  rw [missing] at latest
  cases latest

end Containr.Managed.Pitr
