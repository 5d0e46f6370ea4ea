import Containr.Api.SharedMounts
import Containr.Lines
import Containr.Managed.Databases

/-!
# `containr-runtime/src/database_manager/pitr.rs`

Base backups of a postgres database and its recovery from the latest one. What the daemon and the
file system answer is given with each call: the calls of a recovery between the stop and the start of
the container take their answers from a list. Directories are those of `shared_mounts.rs`: what
`read_dir` lists. The running server is no part of it.
-/

namespace Containr.Managed.Pitr

open Containr.Api.SharedMounts Containr.Managed.Databases

/-- A refused call may leave a part of the file it was to write. -/
inductive Reply where
  | done
  | refused (message : String) (left : Option String)
deriving DecidableEq

/-- Once the replies are used up every call is done. -/
abbrev Replies : Type := List Reply

def failure (text message : String) : String := "operation failed: " ++ text ++ ": " ++ message

/-- What a part of the work made, whether it went through, and the replies it left. -/
structure Done (Made : Type) where
  result : Except String Unit
  made : Made
  replies : Replies

/-- A call that makes nothing, then the work behind it; `before` is what there is without that. -/
def calling {Made : Type} (text : String) (before : Made) (next : Replies → Done Made) :
    Replies → Done Made
  | [] => next []
  | .done :: rest => next rest
  | .refused message _ :: rest => ⟨.error (failure text message), before, rest⟩

def find (name : String) : Entries → Option Entry
  | .none => none
  | .more other entry rest => if other = name then some entry else find name rest

def put (name : String) (entry : Entry) : Entries → Entries
  | .none => .more name entry .none
  | .more other old rest =>
      if other = name then .more name entry rest else .more other old (put name entry rest)

def remove (name : String) : Entries → Entries
  | .none => .none
  | .more other entry rest =>
      if other = name then remove name rest else .more other entry (remove name rest)

/-- `fs::write`. A data directory holds files and directories only. -/
def writeFile (text name content : String) (entries : Entries) (replies : Replies) : Done Entries :=
  match find name entries, replies with
  | some (.directory _), _ => ⟨.error (failure text "Is a directory"), entries, replies.tail⟩
  | _, .refused message left :: rest =>
      ⟨.error (failure text message), (left.map fun part => put name (.file part) entries).getD entries,
        rest⟩
  | _, _ => ⟨.ok (), put name (.file content) entries, replies.tail⟩

def componentText : Path.Component → String
  | .rootDir => ""
  | .curDir => "."
  | .parentDir => ".."
  | .normal name => String.ofList name

/-- `Path::display`. -/
def display (path : List Path.Component) : String := Text.join "/" (path.map componentText)

def copyDirectory (loop : Replies → Done Entries) : Replies → Done (Option Entries) :=
  calling "stat backup directory failed" none
    (calling "create data directory failed" none
      (calling "read backup directory failed" (some .none) fun replies =>
        let copied := loop replies
        ⟨copied.result, some copied.made, copied.replies⟩))

def copyFile (path : List Path.Component) (bytes : String) : Replies → Done (Option Entry)
  | .refused message left :: rest =>
      ⟨.error (failure ("copy backup file " ++ display path ++ " failed") message),
        left.map Entry.file, rest⟩
  | replies => ⟨.ok (), some (.file bytes), replies.tail⟩

mutual

def copyEntry (path : List Path.Component) : Entry → Replies → Done (Option Entry)
  | .file bytes, replies => copyFile path bytes replies
  | .link _, replies | .special, replies =>
      ⟨.error "operation failed: unsupported special file found in base backup", none, replies⟩
  | .directory entries, replies =>
      let copied := copyDirectory (copyEntries path entries) replies
      ⟨copied.result, copied.made.map Entry.directory, copied.replies⟩

/-- The loop over `read_dir`; the last read finds the end. -/
def copyEntries (path : List Path.Component) : Entries → Replies → Done Entries
  | .none, replies => calling "read entry failed" .none (fun rest => ⟨.ok (), .none, rest⟩) replies
  | .more name entry others, replies =>
      calling "read entry failed" .none
        (calling "stat entry failed" .none fun rest =>
          let copied := copyEntry (path ++ [.normal name.toList]) entry rest
          match copied.result with
          | .error message =>
              ⟨.error message, (copied.made.map fun made => Entries.more name made .none).getD .none,
                copied.replies⟩
          | .ok () =>
              let later := copyEntries path others copied.replies
              ⟨later.result, (copied.made.map fun made => Entries.more name made later.made).getD
                later.made, later.replies⟩) replies

end

/-- `copy_dir_recursive` of a backup. -/
def copyDirRecursive (path : List Path.Component) (backup : Entry) (replies : Replies) :
    Done (Option Entries) :=
  match backup with
  | .directory entries => copyDirectory (copyEntries path entries) replies
  | _ => calling "stat backup directory failed" none (fun rest =>
      ⟨.error "operation failed: base backup directory is not a directory", none, rest⟩) replies

def postgresPitrWalPath : String := "/var/lib/postgresql/containr-pitr/wal"

def recoveryManagedKeys : List String :=
  ["restore_command", "recovery_target_action", "recovery_target_name", "recovery_target_time"]

def isManaged (line : String) : Bool :=
  recoveryManagedKeys.any fun key => Text.startsWith (Text.trimStart line) key

section Config

variable {Moment : Type} (toRfc3339 : Moment → String)

/-- A line of the file. -/
def setting (key value : String) : String := key ++ " = '" ++ value ++ "'"

def managedLines (restorePoint : Option String) (targetTime : Option Moment) : List String :=
  [setting "restore_command" ("cp " ++ postgresPitrWalPath ++ "/%f %p"),
    setting "recovery_target_action" "promote"] ++
    (restorePoint.map (setting "recovery_target_name")).toList ++
    (targetTime.map fun time => setting "recovery_target_time" (toRfc3339 time)).toList

/-- The new content of `postgresql.auto.conf`. -/
def recoveryConf (existing : String) (restorePoint : Option String) (targetTime : Option Moment) :
    String :=
  Text.join "\n" ((Text.lines existing).filter (fun line => !isManaged line) ++
    managedLines toRfc3339 restorePoint targetTime) ++ "\n"

def readConf (entries : Entries) (replies : Replies) : Except String String × Replies :=
  match find "postgresql.auto.conf" entries, replies with
  | none, _ => (.ok "", replies)
  | some (.file _), .refused message _ :: rest =>
      (.error (failure "read postgresql.auto.conf failed" message), rest)
  | some (.file content), _ => (.ok content, replies.tail)
  | some _, _ => (.error (failure "read postgresql.auto.conf failed" "Is a directory"), replies.tail)

/-- The result of `remove_file` is not looked at. -/
def removeStandby (entries : Entries) : Replies → Entries
  | .refused _ _ :: _ => entries
  | [] | .done :: _ =>
      match find "standby.signal" entries with
      | some (.file _) => remove "standby.signal" entries
      | _ => entries

def writeRecoveryConfig (restorePoint : Option String) (targetTime : Option Moment)
    (entries : Entries) (replies : Replies) : Done Entries :=
  let signalled := writeFile "write recovery.signal failed" "recovery.signal" "" entries replies
  match signalled.result with
  | .error _ => signalled
  | .ok () =>
      match readConf signalled.made signalled.replies with
      | (.error message, rest) => ⟨.error message, signalled.made, rest⟩
      | (.ok existing, rest) =>
          let written := writeFile "write postgresql.auto.conf failed" "postgresql.auto.conf"
            (recoveryConf toRfc3339 existing restorePoint targetTime) signalled.made rest
          match written.result with
          | .error _ => written
          | .ok () => ⟨.ok (), removeStandby written.made written.replies, written.replies.tail⟩

end Config

structure PitrDatabase extends ManagedDatabase where
  pitrLastBaseBackupAt : Option Time
  pitrLastBaseBackupLabel : Option String
  updatedAt : Time

/-- The data directory, those that were put aside, and the entries of the backup directory. -/
structure Host where
  data : Option Entries
  aside : List Entries
  backups : String → Option Entry

def ensurePostgresPitrSupported (db : PitrDatabase) : Except String Unit :=
  if db.dbType ≠ .postgresql then
    .error "operation failed: point in time recovery is only supported for postgresql"
  else if !db.pitrEnabled then
    .error "operation failed: point in time recovery is not enabled for this database"
  else .ok ()

def PitrDatabase.backupDir (db : PitrDatabase) (label : String) : List Path.Component :=
  db.pitrBackupsPath ++ [.normal label.toList]

def latestBaseBackupDir (db : PitrDatabase) (host : Host) :
    Except String (List Path.Component × Entry) :=
  match db.pitrLastBaseBackupLabel with
  | none => .error "operation failed: no base backup available"
  | some label =>
      match host.backups label with
      | none => .error "operation failed: latest base backup directory is missing"
      | some entry => .ok (db.backupDir label, entry)

/-- What is answered while a database is recovered. When the container does not come up, the server
may have written to the data. -/
structure RecoveryAnswers where
  running : Bool
  switched : Except String Unit
  synced : Except String Unit
  stopped : Except String Unit
  replies : Replies
  started : Except (String × Option Entries) Unit

def stopForRecovery {Moment : Type} (db : PitrDatabase) (restorePoint : Option String)
    (targetTime : Option Moment) (host : Host) (answers : RecoveryAnswers) :
    Except String (List Path.Component × Entry) := do
  ensurePostgresPitrSupported db
  if restorePoint.isSome = targetTime.isSome then
    .error "operation failed: provide exactly one recovery target"
  let backup ← latestBaseBackupDir db host
  if answers.running then
    answers.switched
    answers.synced
  answers.stopped
  return backup

/-- `archive_existing_data_dir`, a rename. -/
def archiveExistingDataDir (host : Host) (replies : Replies) : Done Host :=
  match host.data with
  | none => ⟨.ok (), host, replies⟩
  | some entries =>
      calling "archive current data directory failed" host (fun rest =>
        ⟨.ok (), { host with data := none, aside := host.aside ++ [entries] }, rest⟩) replies

section Recover

variable {Moment : Type} (toRfc3339 : Moment → String)

def restore (path : List Path.Component) (backup : Entry) (restorePoint : Option String)
    (targetTime : Option Moment) (replies : Replies)
    (started : Except (String × Option Entries) Unit) : Except String Unit × Option Entries :=
  let copied := copyDirRecursive path backup replies
  match copied.result, copied.made with
  | .error message, made => (.error message, made)
  | .ok (), none => (.ok (), none)
  | .ok (), some entries =>
      let configured := writeRecoveryConfig toRfc3339 restorePoint targetTime entries copied.replies
      match configured.result with
      | .error message => (.error message, some configured.made)
      | .ok () =>
          match started with
          | .ok () => (.ok (), some configured.made)
          | .error (message, left) => (.error message, some (left.getD configured.made))

def recoverPostgresToTarget (db : PitrDatabase) (restorePoint : Option String)
    (targetTime : Option Moment) (answers : RecoveryAnswers) (host : Host) :
    Except String Unit × Host :=
  match stopForRecovery db restorePoint targetTime host answers with
  | .error message => (.error message, host)
  | .ok backup =>
      let archived := archiveExistingDataDir host answers.replies
      match archived.result with
      | .error message => (.error message, archived.made)
      | .ok () =>
          let restored := restore toRfc3339 backup.1 backup.2 restorePoint targetTime
            archived.replies answers.started
          (restored.1, { archived.made with data := restored.2 })

end Recover

def sanitizeChars : List Char → List Char → List Char
  | front, [] => front
  | front, ch :: rest =>
      if Text.isAsciiAlphanumeric ch || ch = '-' || ch = '_' then
        sanitizeChars (front ++ [ch.toLower]) rest
      else if front.getLast? = some '-' then sanitizeChars front rest
      else sanitizeChars (front ++ ['-']) rest

/-- `trim_matches`, at both ends. -/
def trimMatches (mark : Char) (chars : List Char) : List Char :=
  ((chars.dropWhile (· = mark)).reverse.dropWhile (· = mark)).reverse

def datedLabel (label : String) (now : Time) : String := label ++ "-" ++ Text.compactTimestamp now

def sanitizeName (input label : String) (now : Time) : String :=
  let sanitized := trimMatches '_' (trimMatches '-' (sanitizeChars [] input.toList))
  if sanitized.isEmpty then datedLabel label now else String.ofList sanitized

def resolvePitrLabel (requested : Option String) (label : String) (now : Time) : String :=
  match requested with
  | some value => sanitizeName value label now
  | none => datedLabel label now

/-- What is answered while a base backup is made. A failed removal leaves a part of the directory, and
a failed `pg_basebackup` may leave one; one that exits with 0 leaves a whole backup. -/
structure BackupAnswers where
  running : Bool
  prepared : Except String Unit
  now : Time
  removed : Except (String × Entry) Unit
  basebackup : Except (String × Option Entry) Entry
  normalized : Except String Unit
  finished : Time

def Host.setBackup (host : Host) (label : String) (entry : Option Entry) : Host :=
  { host with backups := Function.update host.backups label entry }

/-- The checks, and the label; nothing is changed by them. -/
def openBackup (db : PitrDatabase) (requested : Option String) (answers : BackupAnswers) :
    Except String String := do
  ensurePostgresPitrSupported db
  if !answers.running then
    .error "operation failed: database must be running to create a base backup"
  answers.prepared
  return resolvePitrLabel requested "base" answers.now

def takeBackup (label : String) (answers : BackupAnswers) (host : Host) :
    Except String Unit × Host :=
  match host.backups label, answers.removed with
  | some _, .error (message, left) =>
      (.error (failure "remove backup dir failed" message), host.setBackup label (some left))
  | _, _ =>
      match answers.basebackup with
      | .error (message, left) => (.error message, host.setBackup label left)
      | .ok entry => (answers.normalized, host.setBackup label (some entry))

def createPostgresBaseBackup (db : PitrDatabase) (requested : Option String)
    (answers : BackupAnswers) (host : Host) :
    Except String (String × String) × PitrDatabase × Host :=
  match openBackup db requested answers with
  | .error message => (.error message, db, host)
  | .ok label =>
      match takeBackup label answers host with
      | (.error message, after) => (.error message, db, after)
      | (.ok (), after) =>
          (.ok (label, display (db.backupDir label)), { db with
            pitrLastBaseBackupAt := some answers.finished
            pitrLastBaseBackupLabel := some label
            updatedAt := answers.finished }, after)

end Containr.Managed.Pitr
