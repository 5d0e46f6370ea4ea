import Containr.Effect.Rules
import Containr.Updates.Install

/-!
# What replaces the executable

`INSTALLING` guards the files beside the executable and the pause. Whatever requests run beside
each other, the executable is the one that was started, or one binary that an install has
downloaded, hashed and run, with the started one kept beside it.
-/

namespace Containr.Updates

open Containr.Effect Containr.Effect.Program

/-- What `INSTALLING` guards. -/
structure Guarded where
  files : Map FilePath Bytes
  paused : Bool

def ServerState.guarded (state : ServerState) : Guarded := ⟨state.files, state.paused⟩

inductive FileMove (stuck : Bool) (files : Map FilePath Bytes) :
    (op : UpdateOp) → op.Answer → Map FilePath Bytes → Prop where
  | created (path : FilePath) : FileMove stuck files (.createFile path) (.ok ())
      (files.insert path [])
  | notCreated (path : FilePath) (error : String) : FileMove stuck files (.createFile path)
      (.error error) files
  | wrote (path : FilePath) {bytes kept content : Bytes} {answer : Except String Unit}
      (whole : answer = .ok () → kept = bytes) (found : files.get path = some content) :
      FileMove stuck files (.writeAll path bytes) answer (files.insert path (content ++ kept))
  | unlinked (path : FilePath) {bytes : Bytes} (answer : Except String Unit)
      (absent : files.get path = none) : FileMove stuck files (.writeAll path bytes) answer files
  | removed (path : FilePath) : FileMove stuck files (.removeFile path) (.ok ()) (files.remove path)
  | absent (path : FilePath) (error : String) (none : files.get path = none) :
      FileMove stuck files (.removeFile path) (.error error) files
  | stayed (path : FilePath) (error : String) (isStuck : stuck = true) :
      FileMove stuck files (.removeFile path) (.error error) files
  | copied (source target : FilePath) {content : Bytes} (found : files.get source = some content) :
      FileMove stuck files (.copy source target) (.ok ()) (files.insert target content)
  | notCopied (source target : FilePath) (error : String) :
      FileMove stuck files (.copy source target) (.error error) files
  | partly (source target : FilePath) (error : String) (content : Bytes) :
      FileMove stuck files (.copy source target) (.error error) (files.insert target content)
  | renamed (source target : FilePath) {content : Bytes} (found : files.get source = some content) :
      FileMove stuck files (.rename source target) (.ok ())
        ((files.remove source).insert target content)
  | notRenamed (source target : FilePath) (error : String) :
      FileMove stuck files (.rename source target) (.error error) files

def UpdateOp.role : (op : UpdateOp) → op.Answer → Role
  | .swapInstalling, true => .outside
  | .swapInstalling, false => .takes
  | .clearInstalling, _ => .gives
  | .setPaused _, _ | .createFile _, _ | .writeAll _ _, _ | .removeFile _, _ | .copy _ _, _
  | .rename _ _, _ => .inside
  | _, _ => .outside

inductive Moves (stuck : Bool) (before : ServerState) :
    (op : UpdateOp) → op.Answer → ServerState → Prop where
  | took (free : before.installing = false) : Moves stuck before .swapInstalling false
      { before with installing := true }
  | busy (held : before.installing = true) : Moves stuck before .swapInstalling true before
  | gave : Moves stuck before .clearInstalling () { before with installing := false }
  | paused (value : Bool) : Moves stuck before (.setPaused value) () { before with paused := value }
  | files {op : UpdateOp} {answer : op.Answer} {files : Map FilePath Bytes}
      (isInside : op.role answer = .inside) (acts : FileMove stuck before.files op answer files) :
      Moves stuck before op answer { before with files := files }
  | outside {op : UpdateOp} {answer : op.Answer} (isOutside : op.role answer = .outside) :
      Moves stuck before op answer before

section Server

variable {exe : Executable} {stuck : Bool}

theorem call_moves {op : UpdateOp} {before after : ServerState} {answer : op.Answer}
    (possible : (server exe stuck).can op before answer after) :
    Moves stuck before op answer after := by
  obtain ⟨choice, admitted, executed⟩ := possible
  cases op with
  | swapInstalling =>
      cases executed
      obtain ⟨files, installing, paused⟩ := before
      cases installing with
      | true => exact .busy rfl
      | false => exact .took rfl
  | clearInstalling =>
      cases executed
      exact .gave
  | setPaused value =>
      cases executed
      exact .paused value
  | currentExe => cases choice with
    | none =>
        cases executed
        exact .outside rfl
    | some _ =>
        cases executed
        exact .outside rfl
  | createFile path => cases choice with
    | ok _ =>
        cases executed
        exact .files rfl (.created path)
    | error error =>
        cases executed
        exact .files rfl (.notCreated path error)
  | writeAll path bytes =>
      cases executed
      apply Moves.files rfl
      cases found : before.files.get path with
      | none => exact .unlinked path _ found
      | some content =>
          apply FileMove.wrote path _ found
          cases choice with
          | ok _ => exact fun _ => rfl
          | error _ =>
              intro finished
              cases finished
  | removeFile path => cases choice with
    | ok _ =>
        change (if (before.files.get path).isSome then
            (Except.ok (), { before with files := before.files.remove path })
          else (Except.error "No such file or directory", before)) = _ at executed
        split_ifs at executed with present
        · cases executed
          exact .files rfl (.removed path)
        · cases executed
          exact .files rfl (.absent path _ (by simpa using present))
    | error error =>
        cases executed
        exact .files rfl (.stayed path error admitted)
  | copy source target =>
      dsimp only [server, UpdateOp.exec] at executed
      cases found : before.files.get source with
      | none =>
          rw [found] at executed
          cases executed
          exact .files rfl (.notCopied source target _)
      | some content =>
          rw [found] at executed
          cases choice with
          | ok _ =>
              cases executed
              exact .files rfl (.copied source target found)
          | error failed =>
              obtain ⟨error, kept⟩ := failed
              cases kept with
              | none =>
                  cases executed
                  exact .files rfl (.notCopied source target error)
              | some count =>
                  cases executed
                  exact .files rfl (.partly source target error _)
  | rename source target => cases choice with
    | ok _ =>
        dsimp only [server, UpdateOp.exec] at executed
        cases found : before.files.get source with
        | none =>
            rw [found] at executed
            cases executed
            exact .files rfl (.notRenamed source target _)
        | some content =>
            rw [found] at executed
            cases executed
            exact .files rfl (.renamed source target found)
    | error error =>
        cases executed
        exact .files rfl (.notRenamed source target error)
  | _ =>
      cases executed
      exact .outside rfl

inductive PartMove (stuck : Bool) (before : Guarded) :
    (op : UpdateOp) → op.Answer → Guarded → Prop where
  | paused (value : Bool) : PartMove stuck before (.setPaused value) () { before with paused := value }
  | files {op : UpdateOp} {answer : op.Answer} {files : Map FilePath Bytes}
      (acts : FileMove stuck before.files op answer files) :
      PartMove stuck before op answer { before with files := files }

def UpdateOp.Sees (exe : Executable) : (op : UpdateOp) → op.Answer → Prop
  | .currentExe, .ok path => path = exe.path
  | _, _ => True

def installing (exe : Executable) (stuck : Bool) : Lock UpdateFace ServerState Guarded where
  role := UpdateOp.role
  held state := state.installing
  part := ServerState.guarded
  effect op before answer after := PartMove stuck before op answer after
  sees := UpdateOp.Sees exe

theorem call_sees {op : UpdateOp} {before after : ServerState} {answer : op.Answer}
    (possible : (server exe stuck).can op before answer after) : op.Sees exe answer := by
  obtain ⟨choice, -, executed⟩ := possible
  cases op with
  | currentExe => cases choice with
    | none =>
        cases executed
        exact rfl
    | some _ =>
        cases executed
        trivial
  | _ => trivial

theorem installing_guards : (installing exe stuck).Guards (server exe stuck).can where
  takes := by
    intro op before answer after possible takes
    change op.role answer = .takes at takes
    cases call_moves possible with
    | took free => exact ⟨free, rfl, rfl⟩
    | busy _ => cases takes
    | gave => cases takes
    | paused _ => cases takes
    | files isInside _ => cases isInside.symm.trans takes
    | outside isOutside => cases isOutside.symm.trans takes
  gives := by
    intro op before answer after possible gives
    change op.role answer = .gives at gives
    cases call_moves possible with
    | took _ => cases gives
    | busy _ => cases gives
    | gave => exact ⟨rfl, rfl⟩
    | paused _ => cases gives
    | files isInside _ => cases isInside.symm.trans gives
    | outside isOutside => cases isOutside.symm.trans gives
  inside := by
    intro op before answer after possible isInside
    change op.role answer = .inside at isInside
    cases call_moves possible with
    | took _ => cases isInside
    | busy _ => cases isInside
    | gave => cases isInside
    | paused value => exact ⟨rfl, .paused value⟩
    | files _ acts => exact ⟨rfl, .files acts⟩
    | outside isOutside => cases isOutside.symm.trans isInside
  outside := by
    intro op before answer after possible outside
    change op.role answer = .outside at outside
    cases call_moves possible with
    | took _ => cases outside
    | busy _ => exact ⟨rfl, rfl, call_sees possible⟩
    | gave => cases outside
    | paused _ => cases outside
    | files isInside _ => cases isInside.symm.trans outside
    | outside _ => exact ⟨rfl, rfl, call_sees possible⟩

end Server

section Paths

variable (exe : Executable)

def Executable.staged (version : String) : FilePath := stagedPath exe.dir version

theorem last_name_path : lastName exe.path = some exe.name := by
  unfold lastName Executable.path
  simp

theorem parent_path : Path.parent exe.path = some exe.dir := by
  unfold Path.parent Executable.path
  simp

theorem backup_path : backupPath exe.path =
    exe.dir ++ [.normal (exe.name ++ ".previous").toList] := by
  unfold backupPath withFileName
  rw [last_name_path]
  simp [Executable.path]

theorem normal_path_inj {dir : FilePath} {first second : List Char}
    (same : dir ++ [Path.Component.normal first] = dir ++ [Path.Component.normal second]) :
    first = second := by
  have last := List.append_cancel_left same
  cases last
  rfl

/-- The name of the executable does not begin like that of a staged file. -/
theorem unmarked (rest : List Char) : exe.name.toList ≠ stagedMark.toList ++ rest := by
  intro same
  have starts : Text.startsWith exe.name stagedMark = true := by
    unfold Text.startsWith
    rw [same]
    exact List.isPrefixOf_iff_prefix.mpr (List.prefix_append _ _)
  rw [exe.plain] at starts
  cases starts

theorem staged_ne_path (version : String) : exe.staged version ≠ exe.path := by
  intro same
  have names := normal_path_inj same
  rw [String.toList_append] at names
  exact unmarked exe _ names.symm

theorem backup_ne_path : backupPath exe.path ≠ exe.path := by
  intro same
  rw [backup_path] at same
  have names := congrArg List.length (normal_path_inj same)
  simp at names

/-- No tail of the mark of staged files begins the ending of the previous binary. -/
theorem mark_tails : ∀ count < stagedMark.toList.length,
    (stagedMark.toList.drop count).isPrefixOf ".previous".toList = false := by
  decide

theorem backup_ne_staged (version : String) : backupPath exe.path ≠ exe.staged version := by
  intro same
  rw [backup_path] at same
  have names := normal_path_inj same
  rw [String.toList_append, String.toList_append] at names
  rcases List.append_eq_append_iff.mp names with ⟨rest, mark, tail⟩ | ⟨rest, name, _⟩
  · cases rest with
    | nil =>
        rw [List.append_nil] at mark
        exact absurd (mark.symm.trans (List.append_nil _).symm) (unmarked exe [])
    | cons ch rest =>
        have short : exe.name.toList.length < stagedMark.toList.length := by
          rw [mark]
          simp
        have cut : stagedMark.toList.drop exe.name.toList.length = ch :: rest := by
          rw [mark, List.drop_left]
        have never := mark_tails exe.name.toList.length short
        rw [cut, tail] at never
        rw [List.isPrefixOf_iff_prefix.mpr (List.prefix_append _ _)] at never
        cases never
  · exact unmarked exe rest name

end Paths

abbrev UpdateLog : Type := List (Call UpdateFace)

def chunkOf (url : String) : (op : UpdateOp) → op.Answer → Bytes
  | .chunk other, .ok (some bytes) => if other = url then bytes else []
  | _, _ => []

def received (url : String) (log : UpdateLog) : Bytes :=
  log.flatMap fun call => chunkOf url call.1 call.2

def UpdateOp.Touches (path : FilePath) : UpdateOp → Prop
  | .createFile other | .writeAll other _ | .removeFile other | .copy _ other => other = path
  | .rename source target => source = path ∨ target = path
  | _ => False

/-- All that came from the url, up to its end; the file has been left alone since. -/
def Downloaded (url : String) (path : FilePath) (log : UpdateLog) (bytes : Bytes) : Prop :=
  ∃ front middle back,
    log = front ++ ⟨.get url, .ok ()⟩ :: middle ++ ⟨.chunk url, .ok none⟩ :: back ∧
      received url middle = bytes ∧ ∀ call ∈ back, ¬call.1.Touches path

/-- The executable has not been renamed over. -/
def Unreplaced (exe : Executable) (log : UpdateLog) : Prop :=
  ∀ source, (⟨.rename source exe.path, .ok ()⟩ : Call UpdateFace) ∉ log

def Pausing (log : UpdateLog) : Prop :=
  Since (fun _ call => call.1 = .setPaused true) (fun call => call.1 = .setPaused false) log

def Idle (log : UpdateLog) : Prop :=
  ∃ front back, log = front ++ ⟨.deploymentRunning, false⟩ :: back ∧ Pausing front ∧
    ∀ call ∈ back, call.1 ≠ .setPaused false

section Evidence

variable {Version : Type} [Semver Version] (build : Build) (sha256Hex : Bytes → String)

/-- A release newer than the running version has the binary at the url, with the hash. -/
def Chosen (target : Version) (binaryUrl hash : String) (log : UpdateLog) : Prop :=
  ∃ (current : Version) (repo : String) (releases : List GithubRelease) (release : GithubRelease)
    (name checksumUrl text : String),
    currentVersion Version build = .ok current ∧ current < target ∧
    ⟨.fetchReleases repo, .releases releases⟩ ∈ log ∧ releaseFor releases target = some release ∧
    platformAssetName build = some name ∧ assetUrl release name = some binaryUrl ∧
    assetUrl release (name ++ ".sha256") = some checksumUrl ∧
    ⟨.fetchText checksumUrl, .ok text⟩ ∈ log ∧ parseChecksum text = some hash

/-- What was downloaded was then started, and reported the version. -/
def Ran (target : Version) (binaryUrl : String) (path : FilePath) (log : UpdateLog)
    (bytes : Bytes) : Prop :=
  ∃ front stdout back, log = front ++ ⟨.runVersion path, .exited true stdout⟩ :: back ∧
    Downloaded binaryUrl path front bytes ∧
    (splitWhitespace stdout).getLast?.bind parseVersion = some target

/-- The release's own binary for a newer version, as its checksum has it, and it runs here. -/
def Genuine (exe : Executable) (target : Version) (log : UpdateLog) (bytes : Bytes) : Prop :=
  ∃ binaryUrl, Chosen build target binaryUrl (sha256Hex bytes) log ∧
    Ran target binaryUrl (exe.staged (Semver.display target)) log bytes

def Replaced (exe : Executable) (initial : Bytes) (target : Version) (log : UpdateLog)
    (part : Guarded) : Prop :=
  ⟨.rename (exe.staged (Semver.display target)) exe.path, .ok ()⟩ ∈ log ∧
    ∃ bytes, part.files.get exe.path = some bytes ∧
      part.files.get (backupPath exe.path) = some initial ∧ part.paused = true ∧
      Genuine build sha256Hex exe target log bytes

variable {build sha256Hex} {exe : Executable} {initial : Bytes} {target : Version}
  {log : UpdateLog} {part : Guarded}

theorem Chosen.append {binaryUrl hash : String} (chosen : Chosen build target binaryUrl hash log)
    (new : UpdateLog) : Chosen build target binaryUrl hash (log ++ new) := by
  obtain ⟨current, repo, releases, release, name, checksumUrl, text, isCurrent, newer, listed, found,
    platform, binary, checksum, fetched, parsed⟩ := chosen
  exact ⟨current, repo, releases, release, name, checksumUrl, text, isCurrent, newer,
    List.mem_append_left _ listed, found, platform, binary, checksum,
    List.mem_append_left _ fetched, parsed⟩

theorem Genuine.append {bytes : Bytes} (genuine : Genuine build sha256Hex exe target log bytes)
    (new : UpdateLog) : Genuine build sha256Hex exe target (log ++ new) bytes := by
  obtain ⟨binaryUrl, chosen, front, stdout, back, rfl, downloaded, reported⟩ := genuine
  exact ⟨binaryUrl, chosen.append new, front, stdout, back ++ new, by simp, downloaded, reported⟩

theorem Replaced.append (replaced : Replaced build sha256Hex exe initial target log part)
    (new : UpdateLog) : Replaced build sha256Hex exe initial target (log ++ new) part := by
  obtain ⟨renamed, bytes, isExe, isBackup, paused, genuine⟩ := replaced
  exact ⟨List.mem_append_left _ renamed, bytes, isExe, isBackup, paused, genuine.append new⟩

theorem Unreplaced.append (unreplaced : Unreplaced exe log) {new : UpdateLog}
    (quiet : ∀ call ∈ new, ∀ source, call ≠ ⟨.rename source exe.path, .ok ()⟩) :
    Unreplaced exe (log ++ new) := by
  intro source member
  rcases List.mem_append.mp member with old | recent
  · exact unreplaced source old
  · exact quiet _ recent source rfl

end Evidence

structure Site where
  build : Build
  sha256Hex : Bytes → String
  exe : Executable
  initial : Bytes
  stuck : Bool

namespace Site

abbrev Known (site : Site) : Type := (installing site.exe site.stuck).Knowledge

variable (site : Site) (Version : Type) [Semver Version]

def Verified {Version : Type} [Semver Version] (target : Version) (log : UpdateLog)
    (part : Guarded) : Prop :=
  Replaced site.build site.sha256Hex site.exe site.initial target log part

/-- The executable is the first one, or a binary that was checked has replaced it. -/
def Sound (known : site.Known) : Prop :=
  Unreplaced site.exe known.2 ∧
      (∀ part, known.1 = some part → part.files.get site.exe.path = some site.initial) ∨
    ∃ (part : Guarded) (target : Version), known.1 = some part ∧ site.Verified target known.2 part

/-- Who has not got the lock has not replaced the executable. -/
def Free (known : site.Known) : Prop := known.1 = none ∧ Unreplaced site.exe known.2

/-- What is asked of every call. -/
structure Demand (known : site.Known) (op : UpdateOp) : Prop where
  sound : site.Sound Version known
  renames : ∀ source target, op = .rename source target → target = site.exe.path ∧ Idle known.2 ∧
    ∃ part, known.1 = some part ∧ part.paused = true
  restarts : ∀ path, op = .restart path → path = site.exe.path ∧
    ∃ (part : Guarded) (target : Version), known.1 = some part ∧ site.Verified target known.2 part

def Tidy (left : Option FilePath) (part : Guarded) : Prop :=
  site.stuck = false → ∀ version, left ≠ some (site.exe.staged version) →
    part.files.get (site.exe.staged version) = none

/-- What holds between two installs. -/
structure Rest (part : Guarded) : Prop where
  exe : part.files.get site.exe.path = some site.initial
  resumed : part.paused = false
  tidy : site.Tidy none part

abbrev Keeps {Value : Type} (program : Prog Value) (post : Value → site.Known → Prop)
    (known : site.Known) : Prop :=
  (installing site.exe site.stuck).Keeps site.Rest (site.Demand Version) program post known

abbrev Ends {Value : Type} (program : Fallible Value) (success : Value → site.Known → Prop)
    (failure : site.Known → Prop) (known : site.Known) : Prop :=
  Outcome ((installing site.exe site.stuck).Alone site.Rest)
    (fun before op => (installing site.exe site.stuck).Proper site.Rest before op ∧
      site.Demand Version before op) program success failure known

/-- The files while an install goes on. -/
structure Kept (left : Option FilePath) (part : Guarded) : Prop where
  exe : part.files.get site.exe.path = some site.initial
  paused : part.paused = true
  tidy : site.Tidy left part

/-- The calls of an install that goes on. -/
structure Underway (log : UpdateLog) : Prop where
  pausing : Pausing log
  unreplaced : Unreplaced site.exe log

/-- What the holder of the lock knows of the files, together with its calls. -/
def Has (left : Option FilePath) (facts : Guarded → UpdateLog → Prop) (known : site.Known) : Prop :=
  ∃ part, known.1 = some part ∧ site.Kept left part ∧ site.Underway known.2 ∧ facts part known.2

end Site

/-- Calls that leave the lock, the files and the process alone. -/
def Away : UpdateOp → Prop
  | .swapInstalling | .clearInstalling | .setPaused _ | .createFile _ | .writeAll _ _
  | .removeFile _ | .copy _ _ | .rename _ _ | .restart _ => False
  | _ => True

abbrev awayRule : Rule UpdateFace := fun _ op => Away op

theorem away_outside {op : UpdateOp} (away : Away op) (answer : op.Answer) :
    op.role answer = .outside := by
  cases op with
  | swapInstalling | clearInstalling | setPaused _ | createFile _ | writeAll _ _ | removeFile _
  | copy _ _ | rename _ _ => exact absurd away id
  | _ => rfl

def Onward (log more : UpdateLog) : Prop := ∃ new, more = log ++ new ∧ ∀ call ∈ new, Away call.1

theorem onward_snoc (log : UpdateLog) (op : UpdateOp) (away : Away op) (answer : op.Answer) :
    Onward log (log ++ [⟨op, answer⟩]) := by
  refine ⟨_, rfl, fun call member => ?_⟩
  rw [List.mem_singleton.mp member]
  exact away

theorem away_touches {op : UpdateOp} (away : Away op) (path : FilePath) : ¬op.Touches path := by
  cases op with
  | createFile _ | writeAll _ _ | removeFile _ | copy _ _ | rename _ _ => exact absurd away id
  | _ => exact id

theorem Unreplaced.onward {exe : Executable} {log more : UpdateLog}
    (unreplaced : Unreplaced exe log) (onward : Onward log more) : Unreplaced exe more := by
  obtain ⟨new, rfl, away⟩ := onward
  apply unreplaced.append
  rintro _ member source rfl
  exact away _ member

theorem Pausing.onward {log more : UpdateLog} (pausing : Pausing log) (onward : Onward log more) :
    Pausing more := by
  obtain ⟨new, rfl, away⟩ := onward
  apply pausing.append
  intro call member resumes
  have isAway := away call member
  rw [resumes] at isAway
  exact isAway

def Lasting (facts : Guarded → UpdateLog → Prop) : Prop :=
  ∀ part log more, Onward log more → facts part log → facts part more

section Requests

variable {site : Site} {Version : Type} [Semver Version] {known : site.Known}

theorem Site.Free.sound (free : site.Free known) : site.Sound Version known := by
  refine Or.inl ⟨free.2, fun part holds => ?_⟩
  rw [free.1] at holds
  cases holds

theorem Site.Free.onward {after : site.Known} (free : site.Free known) (same : after.1 = known.1)
    (onward : Onward known.2 after.2) : site.Free after :=
  ⟨same.trans free.1, free.2.onward onward⟩

theorem away_demand {op : UpdateOp} (away : Away op) (sound : site.Sound Version known) :
    site.Demand Version known op where
  sound := sound
  renames := by
    rintro _ _ rfl
    exact absurd away id
  restarts := by
    rintro _ rfl
    exact absurd away id

variable {Value : Type} {held : Value → UpdateLog → Prop}

theorem keeps_away {program : Prog Value}
    (recorded : program.Always Recording awayRule held known.2)
    (sound : ∀ more, Onward known.2 more → site.Sound Version (known.1, more)) :
    site.Keeps Version program (fun value after => after.1 = known.1 ∧
      held value after.2 ∧ Onward known.2 after.2) known := by
  have guarded := @Always.guard _ _ _ _ _ _ _ _ (Onward known.2) recorded
    (by
      rintro op before answer after away ⟨new, rfl, earlier⟩ rfl
      refine ⟨new ++ [⟨op, answer⟩], by simp, fun call member => ?_⟩
      rcases List.mem_append.mp member with old | last
      · exact earlier call old
      · rw [List.mem_singleton.mp last]
        exact away)
    ⟨[], by simp, List.forall_mem_nil _⟩
  apply (Lock.keeps_recorded guarded _ _).mono
  · exact fun _ _ after => after
  · exact fun _ op permitted answer => away_outside permitted.1 answer
  · exact fun calls op permitted => away_demand permitted.1 (sound calls permitted.2)

theorem keeps_free {program : Prog Value} (free : site.Free known) (calls : program.Calls Away) :
    site.Keeps Version program (fun _ after => site.Free after) known := by
  have under : program.Under (fun _ _ => True) Away fun _ => True := calls.under
  have recorded := under.recorded (fun _ _ (away : Away _) => away) known.2
  have sound : ∀ more, Onward known.2 more → site.Sound Version (known.1, more) := by
    intro more onward
    have later : site.Free (known.1, more) := free.onward rfl onward
    exact later.sound
  apply (keeps_away recorded sound).mono
  exact fun _ after held => free.onward held.1 held.2.2

variable {program : Fallible Value}

theorem ends_free (free : site.Free known) (calls : program.run.Calls Away) :
    site.Ends Version program (fun _ after => site.Free after) site.Free known := by
  apply (keeps_free free calls).mono
  intro result after held
  cases result with
  | ok _ => exact held
  | error _ => exact held

variable {left : Option FilePath} {facts : Guarded → UpdateLog → Prop}

theorem has_sound (has : site.Has left facts known) : site.Sound Version known := by
  obtain ⟨part, holds, kept, underway, -⟩ := has
  refine Or.inl ⟨underway.unreplaced, fun other same => ?_⟩
  cases holds.symm.trans same
  exact kept.exe

theorem Site.Has.onward (has : site.Has left facts known) (lasting : Lasting facts)
    {after : site.Known} (same : after.1 = known.1) (onward : Onward known.2 after.2) :
    site.Has left facts after := by
  obtain ⟨part, holds, kept, underway, held⟩ := has
  have later : site.Underway after.2 :=
    ⟨underway.pausing.onward onward, underway.unreplaced.onward onward⟩
  exact ⟨part, same.trans holds, kept, later, lasting part _ _ onward held⟩

theorem Site.Has.weaken (has : site.Has left facts known) {weaker : Guarded → UpdateLog → Prop}
    (implies : ∀ part log, facts part log → weaker part log) : site.Has left weaker known := by
  obtain ⟨part, holds, kept, underway, held⟩ := has
  exact ⟨part, holds, kept, underway, implies part _ held⟩

variable (Version) in
/-- What the holder of the lock finds out with calls that are away. -/
theorem ends_away (has : site.Has left facts known) (lasting : Lasting facts)
    (leaves : Leaves awayRule program known.2 held) : site.Ends Version program
      (fun value after => site.Has left facts after ∧ held value after.2)
      (site.Has left facts) known := by
  have sound : ∀ more, Onward known.2 more → site.Sound Version (known.1, more) := by
    intro more onward
    have later : site.Has left facts (known.1, more) := has.onward lasting rfl onward
    exact has_sound later
  apply (keeps_away leaves sound).mono
  rintro result after ⟨same, found, onward⟩
  have later := has.onward lasting same onward
  cases result with
  | ok value => exact ⟨later, found value rfl⟩
  | error _ => exact later

variable {mapErr : String → ApiError} {success : Value → site.Known → Prop}
  {failure : site.Known → Prop}

theorem ends_attempt {program : Prog (Except String Value)}
    (keeps : site.Keeps Version program (fun result after => match result with
      | .ok value => success value after
      | .error _ => failure after) known) :
    site.Ends Version (attempt mapErr program) success failure known := by
  apply always_run_map.mpr
  apply keeps.mono
  intro result after held
  cases result with
  | ok value => exact held
  | error _ => exact held

variable {log : UpdateLog}

theorem leaves_attempt {rule : Rule UpdateFace} {program : Prog (Except String Value)}
    (recorded : program.Always Recording rule
      (fun result after => ∀ value, result = .ok value → held value after) log) :
    Leaves rule (attempt mapErr program) log held := by
  apply always_run_map.mpr
  apply recorded.mono
  intro result after found value same
  cases result with
  | ok value =>
      cases same
      exact found value rfl
  | error _ => cases same

theorem ask_leaves {Value : Type} {op : UpdateOp} (away : Away op)
    {continuation : op.Answer → Fallible Value} {log : UpdateLog} {held : Value → UpdateLog → Prop}
    (rest : ∀ answer, Leaves awayRule (continuation answer) (log ++ [⟨op, answer⟩]) held) :
    Leaves awayRule (liftM (ask op) >>= continuation) log held := by
  have asked : (ask op).Always Recording awayRule
      (fun answer after => after = log ++ [⟨op, answer⟩]) log := recorded_call away fun _ => rfl
  apply leaves_lift_chain asked
  rintro answer _ rfl
  exact rest answer

variable (patience : Nat) (build : Build)

theorem fetch_releases_leaves (repo : String) (log : UpdateLog) :
    Leaves awayRule (fetchReleases build repo) log fun releases after =>
      ∃ repo, ⟨.fetchReleases repo, .releases releases⟩ ∈ after := by
  unfold fetchReleases
  dsimp only
  split_ifs
  · exact leaves_throw _
  have client : (ask .httpClient).Always Recording awayRule
      (fun result _ => ∀ value, result = .ok value → True) log :=
    recorded_call trivial fun _ _ _ => trivial
  apply leaves_chain (leaves_attempt client)
  rintro _ made -
  refine ask_leaves ?_ fun answer => ?_
  · trivial
  cases answer with
  | sendFailed error => exact leaves_throw _
  | status code shown =>
      dsimp only
      split_ifs
      · exact leaves_throw _
      · exact leaves_throw _
  | unreadable error => exact leaves_throw _
  | releases releases =>
      apply leaves_return
      exact ⟨_, List.mem_concat_self⟩

theorem fetch_checksum_leaves (url : String) (log : UpdateLog) :
    Leaves awayRule (fetchChecksum url) log fun hash after =>
      ∃ text, ⟨.fetchText url, .ok text⟩ ∈ after ∧ parseChecksum text = some hash := by
  have fetched : (ask (.fetchText url)).Always Recording awayRule
      (fun result after => ∀ text : String, result = .ok text →
        (⟨.fetchText url, .ok text⟩ : Call UpdateFace) ∈ after) log := by
    apply recorded_call trivial
    rintro answer text rfl
    exact List.mem_concat_self
  apply leaves_chain (leaves_attempt fetched)
  intro text made isFetched
  split
  · rename_i hash parsed
    exact leaves_return ⟨text, isFetched, parsed⟩
  · exact leaves_throw _

theorem wait_leaves (log : UpdateLog) :
    Leaves awayRule (waitForRunningDeployment patience) log fun _ after =>
      ∃ more, Onward log more ∧ after = more ++ [⟨.deploymentRunning, false⟩] := by
  induction patience generalizing log with
  | zero => exact leaves_throw _
  | succ patience ih =>
      refine @ask_leaves Unit UpdateOp.deploymentRunning trivial _ _ _ fun running => ?_
      cases running with
      | false =>
          apply leaves_return
          exact ⟨log, ⟨[], by simp, List.forall_mem_nil _⟩, rfl⟩
      | true =>
          refine @ask_leaves Unit UpdateOp.deadlinePassed trivial _ _ _ fun late => ?_
          cases late with
          | true => exact leaves_throw _
          | false =>
              apply (ih _).mono
              intro result after found value same
              obtain ⟨more, ⟨new, rfl, away⟩, ends⟩ := found value same
              refine ⟨_, ⟨⟨.deploymentRunning, true⟩ :: ⟨.deadlinePassed, false⟩ :: new, ?_, ?_⟩, ends⟩
              · simp
              · intro call member
                rcases List.mem_cons.mp member with first | rest
                · rw [first]
                  trivial
                · rcases List.mem_cons.mp rest with second | others
                  · rw [second]
                    trivial
                  · exact away call others

theorem demand_of {op : UpdateOp} (sound : site.Sound Version known)
    (notRename : ∀ source target, op ≠ .rename source target)
    (notRestart : ∀ path, op ≠ .restart path) : site.Demand Version known op where
  sound := sound
  renames source target same := absurd same (notRename source target)
  restarts path same := absurd same (notRestart path)

variable {part : Guarded} {version : String}

theorem Site.Kept.insert_staged (kept : site.Kept left part)
    (covered : ∀ other, left = some other → other = site.exe.staged version) (content : Bytes) :
    site.Kept (some (site.exe.staged version))
      { part with files := part.files.insert (site.exe.staged version) content } where
  exe := by
    rw [Map.get_insert, if_neg (staged_ne_path site.exe version).symm]
    exact kept.exe
  paused := kept.paused
  tidy free other different := by
    have notSame : site.exe.staged other ≠ site.exe.staged version := fun same =>
      different (congrArg some same.symm)
    rw [Map.get_insert, if_neg notSame]
    exact kept.tidy free other fun isLeft => notSame (covered _ isLeft)

theorem Site.Kept.removed (kept : site.Kept (some (site.exe.staged version)) part) :
    site.Kept none { part with files := part.files.remove (site.exe.staged version) } where
  exe := by
    rw [Map.get_remove, if_neg (staged_ne_path site.exe version).symm]
    exact kept.exe
  paused := kept.paused
  tidy free other _ := by
    rw [Map.get_remove]
    split_ifs with same
    · rfl
    · exact kept.tidy free other fun isLeft => same (Option.some.inj isLeft).symm

theorem Site.Kept.gone (kept : site.Kept (some (site.exe.staged version)) part)
    (gone : part.files.get (site.exe.staged version) = none ∨ site.stuck = true) :
    site.Kept none part where
  exe := kept.exe
  paused := kept.paused
  tidy free other _ := by
    by_cases same : some (site.exe.staged version) = some (site.exe.staged other)
    · rcases gone with absent | isStuck
      · rw [← Option.some.inj same]
        exact absent
      · rw [free] at isStuck
        cases isStuck
    · exact kept.tidy free other same

theorem Site.Kept.widen (kept : site.Kept none part) (path : FilePath) :
    site.Kept (some path) part where
  exe := kept.exe
  paused := kept.paused
  tidy free other _ := kept.tidy free other nofun

abbrev anyFacts : Guarded → UpdateLog → Prop := fun _ _ => True

theorem unreplaced_snoc (unreplaced : Unreplaced site.exe log) (call : Call UpdateFace)
    (quiet : ∀ source, call ≠ ⟨.rename source site.exe.path, .ok ()⟩) :
    Unreplaced site.exe (log ++ [call]) := by
  apply unreplaced.append
  intro other member
  rw [List.mem_singleton.mp member]
  exact quiet

theorem underway_snoc (underway : site.Underway log) (call : Call UpdateFace)
    (goesOn : call.1 ≠ .setPaused false)
    (quiet : ∀ source, call ≠ ⟨.rename source site.exe.path, .ok ()⟩) :
    site.Underway (log ++ [call]) where
  pausing := by
    apply underway.pausing.append
    intro other member
    rw [List.mem_singleton.mp member]
    exact goesOn
  unreplaced := unreplaced_snoc underway.unreplaced call quiet

/-- After a failure the staged file is removed. -/
theorem ends_discarding (ends : site.Ends Version program success
      (site.Has (some (site.exe.staged version)) anyFacts) known) :
    site.Ends Version (discarding (site.exe.staged version) program) success
      (site.Has none anyFacts) known := by
  apply Always.bind ends
  intro result after held
  cases result with
  | ok value => exact always_pure.mpr held
  | error error =>
      have sound : site.Sound Version after := has_sound held
      obtain ⟨part, holds, kept, underway, -⟩ := held
      have demand : site.Demand Version after (.removeFile (site.exe.staged version)) :=
        demand_of sound nofun nofun
      apply always_bind.mpr
      apply Lock.keeps_inside holds (fun _ => rfl) demand
      intro answer now moves
      apply always_pure.mpr
      have still := underway_snoc underway ⟨.removeFile (site.exe.staged version), answer⟩ nofun nofun
      cases moves with
      | files acts => cases acts with
        | removed => exact ⟨_, rfl, kept.removed, still, trivial⟩
        | absent _ _ none => exact ⟨_, rfl, kept.gone (Or.inl none), still, trivial⟩
        | stayed _ _ isStuck => exact ⟨_, rfl, kept.gone (Or.inr isStuck), still, trivial⟩

/-- The file holds some bytes, and others have come from the url since it was opened. -/
def Fetching (url : String) (path : FilePath) (front : UpdateLog) (written got : Bytes)
    (part : Guarded) (log : UpdateLog) : Prop :=
  part.files.get path = some written ∧
    ∃ middle, log = front ++ ⟨.get url, .ok ()⟩ :: middle ∧ received url middle = got

def Fetched (url : String) (path : FilePath) (bytes : Bytes) (part : Guarded) (log : UpdateLog) :
    Prop := part.files.get path = some bytes ∧ Downloaded url path log bytes

theorem fetched_lasting (url : String) (path : FilePath) (bytes : Bytes) :
    Lasting (Fetched url path bytes) := by
  rintro part log more ⟨new, rfl, away⟩ ⟨stored, front, middle, back, rfl, whole, alone⟩
  refine ⟨stored, front, middle, back ++ new, by simp, whole, fun call member => ?_⟩
  rcases List.mem_append.mp member with old | recent
  · exact alone call old
  · exact away_touches (away call recent) path

theorem any_lasting : Lasting anyFacts := fun _ _ _ _ _ => trivial

variable {url : String} {front : UpdateLog} {written got : Bytes}

/-- One more answer of the stream. -/
theorem chunk_ends (fetching : site.Has left (Fetching url (site.exe.staged version) front written
      written) known) :
    site.Ends Version (attempt (badGateway "download update") (ask (.chunk url)))
      (fun answer after => match answer with
        | none => site.Has left (Fetched url (site.exe.staged version) written) after
        | some chunk => site.Has left
            (Fetching url (site.exe.staged version) front written (written ++ chunk)) after)
      (site.Has left anyFacts) known := by
  have demand : site.Demand Version known (.chunk url) := away_demand trivial (has_sound fetching)
  obtain ⟨part, holds, kept, underway, stored, middle, split, whole⟩ := fetching
  apply ends_attempt
  apply Lock.keeps_outside (fun _ => rfl) demand
  intro answer _
  have still := underway_snoc underway ⟨.chunk url, answer⟩ nofun nofun
  cases answer with
  | error error => exact ⟨part, holds, kept, still, trivial⟩
  | ok more => cases more with
    | none =>
        refine ⟨part, holds, kept, still, stored, front, middle, [], ?_, whole, List.forall_mem_nil _⟩
        rw [split]
    | some chunk =>
        refine ⟨part, holds, kept, still, stored,
          middle ++ [⟨.chunk url, .ok (some chunk)⟩], ?_, ?_⟩
        · rw [split]
          simp
        · rw [← whole]
          simp [received, chunkOf]

theorem write_ends {chunk : Bytes} (fetching : site.Has (some (site.exe.staged version))
      (Fetching url (site.exe.staged version) front written (written ++ chunk)) known) :
    site.Ends Version (attempt internal (ask (.writeAll (site.exe.staged version) chunk)))
      (fun _ after => site.Has (some (site.exe.staged version))
        (Fetching url (site.exe.staged version) front (written ++ chunk) (written ++ chunk)) after)
      (site.Has (some (site.exe.staged version)) anyFacts) known := by
  have demand : site.Demand Version known (.writeAll (site.exe.staged version) chunk) :=
    demand_of (has_sound fetching) nofun nofun
  obtain ⟨part, holds, kept, underway, stored, middle, split, whole⟩ := fetching
  apply ends_attempt
  apply Lock.keeps_inside holds (fun _ => rfl) demand
  intro answer now moves
  have still := underway_snoc underway
    ⟨.writeAll (site.exe.staged version) chunk, answer⟩ nofun nofun
  cases moves with
  | files acts => cases acts with
    | unlinked _ _ absent =>
        rw [stored] at absent
        cases absent
    | wrote _ all found =>
        cases stored.symm.trans found
        have keptThen := kept.insert_staged (fun other same => (Option.some.inj same).symm)
        cases answer with
        | error error => exact ⟨_, rfl, keptThen _, still, trivial⟩
        | ok _ =>
            rw [all rfl]
            refine ⟨_, rfl, keptThen _, still, Map.get_insert_same _ _ _,
              middle ++ [⟨.writeAll (site.exe.staged version) chunk, .ok ()⟩], ?_, ?_⟩
            · rw [split]
              simp
            · rw [← whole]
              simp [received, chunkOf]

theorem download_chunks_ends (fetching : site.Has (some (site.exe.staged version))
      (Fetching url (site.exe.staged version) front written written) known) :
    site.Ends Version (downloadChunks url (site.exe.staged version) patience written)
      (fun bytes after => site.Has (some (site.exe.staged version))
        (Fetched url (site.exe.staged version) bytes) after)
      (site.Has (some (site.exe.staged version)) anyFacts) known := by
  induction patience generalizing written known with
  | zero => exact outcome_throw (fetching.weaken fun _ _ _ => trivial)
  | succ patience ih =>
      apply outcome_chain (chunk_ends fetching)
      intro answer after held
      cases answer with
      | none => exact outcome_return held
      | some chunk =>
          apply outcome_chain (write_ends held)
          exact fun _ later writes => ih writes

theorem download_ends (sha256Hex : Bytes → String) (patience : Nat)
    (has : site.Has none anyFacts known) :
    site.Ends Version (download sha256Hex patience url (site.exe.staged version))
      (fun hash after => ∃ bytes, hash = sha256Hex bytes ∧
        site.Has (some (site.exe.staged version))
          (Fetched url (site.exe.staged version) bytes) after)
      (site.Has (some (site.exe.staged version)) anyFacts) known := by
  have gets : site.Ends Version (attempt (badGateway "download update") (ask (.get url)))
      (fun _ after => site.Has none
        (fun _ log => ∃ front, log = front ++ [⟨.get url, .ok ()⟩]) after)
      (site.Has (some (site.exe.staged version)) anyFacts) known := by
    have demand : site.Demand Version known (.get url) := away_demand trivial (has_sound has)
    obtain ⟨part, holds, kept, underway, -⟩ := has
    apply ends_attempt
    apply Lock.keeps_outside (fun _ => rfl) demand
    intro answer _
    have still := underway_snoc underway ⟨.get url, answer⟩ nofun nofun
    cases answer with
    | error _ => exact ⟨part, holds, kept.widen _, still, trivial⟩
    | ok _ => exact ⟨part, holds, kept, still, _, rfl⟩
  apply outcome_chain gets
  intro _ opened isOpen
  have creates : site.Ends Version
      (attempt internal (ask (.createFile (site.exe.staged version))))
      (fun _ after => ∃ front, site.Has (some (site.exe.staged version))
        (Fetching url (site.exe.staged version) front [] []) after)
      (site.Has (some (site.exe.staged version)) anyFacts) opened := by
    have demand : site.Demand Version opened (.createFile (site.exe.staged version)) :=
      demand_of (has_sound isOpen) nofun nofun
    obtain ⟨part, holds, kept, underway, front, split⟩ := isOpen
    apply ends_attempt
    apply Lock.keeps_inside holds (fun _ => rfl) demand
    intro answer now moves
    have still := underway_snoc underway ⟨.createFile (site.exe.staged version), answer⟩ nofun nofun
    cases moves with
    | files acts => cases acts with
      | notCreated => exact ⟨_, rfl, kept.widen _, still, trivial⟩
      | created =>
          refine ⟨front, _, rfl, kept.insert_staged nofun [], still,
            Map.get_insert_same _ _ _, [⟨.createFile (site.exe.staged version), .ok ()⟩], ?_, rfl⟩
          rw [split]
          simp
  apply outcome_chain creates
  rintro _ created ⟨front, fetching⟩
  apply outcome_chain (download_chunks_ends patience fetching)
  intro bytes stored fetched
  have synced : Leaves awayRule (attempt internal (ask (.syncAll (site.exe.staged version))))
      stored.2 fun _ _ => True :=
    leaves_attempt (recorded_call trivial fun _ _ _ => trivial)
  have weak := (ends_away Version fetched (fetched_lasting _ _ _) synced)
  apply outcome_chain (weak.mono (fun _ _ held => held.1)
    fun _ held => held.weaken fun _ _ _ => trivial)
  exact fun _ after held => outcome_return ⟨bytes, rfl, held⟩

theorem verify_leaves (path : FilePath) (target : Version) (log : UpdateLog) :
    Leaves awayRule (verifyBinaryVersion build path target) log fun _ after =>
      ∃ stdout, after = log ++ [⟨.runVersion path, .exited true stdout⟩] ∧
        (splitWhitespace stdout).getLast?.bind parseVersion = some target := by
  refine @ask_leaves Unit (.runVersion path) trivial _ _ _ fun run => ?_
  cases run with
  | timedOut => exact leaves_throw _
  | failed error => exact leaves_throw _
  | exited success stdout =>
      dsimp only
      split_ifs with wrong
      · exact leaves_throw _
      · apply leaves_return
        simp only [Bool.or_eq_true, Bool.not_eq_true', decide_eq_true_eq, not_or,
          Bool.not_eq_false, not_not] at wrong
        refine ⟨stdout, ?_, wrong.2⟩
        rw [wrong.1]

/-- A program only adds to the calls. -/
theorem ends_grows (ends : site.Ends Version program success failure known) :
    site.Ends Version program (fun value after => success value after ∧
      ∃ new, after.2 = known.2 ++ new) failure known := by
  have guarded := @Always.guard _ _ _ _ _ _ _ _
    (fun after : site.Known => ∃ new, after.2 = known.2 ++ new) ends
    (by
      rintro op before answer after - ⟨new, grown⟩ ⟨step, -⟩
      exact ⟨new ++ [⟨op, answer⟩], by rw [step, grown, List.append_assoc]⟩)
    ⟨[], by simp⟩
  have included := guarded.restrict (fun _ _ _ _ possible => possible) fun _ _ held => held.1
  apply Always.mono included
  rintro result after ⟨held, grown⟩
  cases result with
  | ok value => exact ⟨held, grown⟩
  | error _ => exact held

def Ready (site : Site) (target : Version) (part : Guarded) (log : UpdateLog) : Prop :=
  ∃ bytes, part.files.get (site.exe.staged (Semver.display target)) = some bytes ∧
    Genuine site.build site.sha256Hex site.exe target log bytes

theorem ready_lasting (target : Version) : Lasting (Ready site target) := by
  rintro part log more ⟨new, rfl, -⟩ ⟨bytes, stored, genuine⟩
  exact ⟨bytes, stored, genuine.append new⟩

variable {target : Version} {binaryUrl expected : String}

theorem stage_binary_ends (has : site.Has none anyFacts known)
    (chosen : Chosen site.build target binaryUrl expected known.2) :
    site.Ends Version (stageBinary site.build site.sha256Hex patience binaryUrl expected
        (site.exe.staged (Semver.display target)) target)
      (fun _ after => site.Has (some (site.exe.staged (Semver.display target)))
        (Ready site target) after)
      (site.Has (some (site.exe.staged (Semver.display target))) anyFacts) known := by
  apply outcome_chain (ends_grows (download_ends site.sha256Hex patience has))
  rintro actual downloaded ⟨⟨bytes, rfl, fetched⟩, new, grown⟩
  dsimp only
  split_ifs with differs
  · exact outcome_throw (fetched.weaken fun _ _ _ => trivial)
  have same : site.sha256Hex bytes = expected := not_not.mp differs
  have chosenThen : Chosen site.build target binaryUrl (site.sha256Hex bytes) downloaded.2 := by
    rw [same, grown]
    exact chosen.append new
  have executable : Leaves awayRule
      (attempt internal (ask (.setExecutable (site.exe.staged (Semver.display target)))))
      downloaded.2 fun _ after => Chosen site.build target binaryUrl (site.sha256Hex bytes) after := by
    apply leaves_attempt
    apply recorded_call trivial
    exact fun _ _ _ => chosenThen.append _
  apply outcome_chain ((ends_away Version fetched (fetched_lasting _ _ _) executable).mono
    (fun _ _ held => held) fun _ held => held.weaken fun _ _ _ => trivial)
  rintro _ marked ⟨fetchedThen, chosenNow⟩
  obtain ⟨_, -, -, -, -, whole⟩ := id fetchedThen
  have verified := verify_leaves site.build (site.exe.staged (Semver.display target)) target marked.2
  apply (ends_away Version fetchedThen (fetched_lasting _ _ _) verified).mono
  · rintro _ after ⟨⟨part, holds, kept, underway, stored, -⟩, stdout, grownMore, reported⟩
    refine ⟨part, holds, kept, underway, bytes, stored, binaryUrl, ?_, marked.2, stdout, [],
      grownMore, whole, reported⟩
    rw [grownMore]
    exact chosenNow.append _
  · exact fun _ held => held.weaken fun _ _ _ => trivial

theorem wait_ends
    (ready : site.Has (some (site.exe.staged (Semver.display target))) (Ready site target) known) :
    site.Ends Version (waitForRunningDeployment patience)
      (fun _ after => site.Has (some (site.exe.staged (Semver.display target)))
        (fun part log => Ready site target part log ∧ Idle log) after)
      (site.Has (some (site.exe.staged (Semver.display target))) anyFacts) known := by
  have ends := ends_away Version ready (ready_lasting target)
    (wait_leaves patience known.2)
  apply ends.mono
  · rintro _ after ⟨⟨part, holds, kept, underway, staged⟩, more, onward, split⟩
    refine ⟨part, holds, kept, underway, staged, more, [], split, ?_, List.forall_mem_nil _⟩
    obtain ⟨part, -, -, earlier, -⟩ := ready
    exact earlier.pausing.onward onward
  · exact fun _ held => held.weaken fun _ _ _ => trivial

/-- Another file is written beside the executable and the staged one. -/
theorem Site.Kept.insert_backup (kept : site.Kept left part) (content : Bytes) :
    site.Kept left
      { part with files := part.files.insert (backupPath site.exe.path) content } where
  exe := by
    rw [Map.get_insert, if_neg (backup_ne_path site.exe).symm]
    exact kept.exe
  paused := kept.paused
  tidy free other different := by
    rw [Map.get_insert, if_neg (backup_ne_staged site.exe other).symm]
    exact kept.tidy free other different

/-- What a rename needs. -/
def Backed (site : Site) (target : Version) (part : Guarded) (log : UpdateLog) : Prop :=
  Ready site target part log ∧ Idle log ∧
    part.files.get (backupPath site.exe.path) = some site.initial

theorem idle_snoc (idle : Idle log) (call : Call UpdateFace) (quiet : call.1 ≠ .setPaused false) :
    Idle (log ++ [call]) := by
  obtain ⟨front, back, rfl, pausing, kept⟩ := idle
  refine ⟨front, back ++ [call], by simp, pausing, fun other member => ?_⟩
  rcases List.mem_append.mp member with old | new
  · exact kept other old
  · rw [List.mem_singleton.mp new]
    exact quiet

theorem copy_ends (ready : site.Has (some (site.exe.staged (Semver.display target)))
      (fun part log => Ready site target part log ∧ Idle log) known) : site.Ends Version
      (attempt mapErr (ask (.copy site.exe.path (backupPath site.exe.path))))
      (fun _ after => site.Has (some (site.exe.staged (Semver.display target)))
        (Backed site target) after)
      (site.Has (some (site.exe.staged (Semver.display target))) anyFacts) known := by
  have demand : site.Demand Version known (.copy site.exe.path (backupPath site.exe.path)) :=
    demand_of (has_sound ready) nofun nofun
  obtain ⟨part, holds, kept, underway, ⟨bytes, stored, genuine⟩, idle⟩ := ready
  apply ends_attempt
  apply Lock.keeps_inside holds (fun _ => rfl) demand
  intro answer now moves
  have still := underway_snoc underway
    ⟨.copy site.exe.path (backupPath site.exe.path), answer⟩ nofun nofun
  have stillIdle := idle_snoc idle ⟨.copy site.exe.path (backupPath site.exe.path), answer⟩ nofun
  cases moves with
  | files acts => cases acts with
    | notCopied => exact ⟨_, rfl, kept, still, trivial⟩
    | partly => exact ⟨_, rfl, kept.insert_backup _, still, trivial⟩
    | copied _ _ found =>
        cases kept.exe.symm.trans found
        refine ⟨_, rfl, kept.insert_backup _, still, ⟨bytes, ?_, genuine.append _⟩,
          stillIdle, Map.get_insert_same _ _ _⟩
        rw [Map.get_insert, if_neg (backup_ne_staged site.exe _).symm]
        exact stored

/-- The executable is replaced, or nothing has changed. -/
theorem rename_ends
    (backed : site.Has (some (site.exe.staged (Semver.display target))) (Backed site target)
      known) : site.Ends Version
      (attempt mapErr
        (ask (.rename (site.exe.staged (Semver.display target)) site.exe.path)))
      (fun _ after => ∃ part, after.1 = some part ∧ site.Verified target after.2 part)
      (site.Has (some (site.exe.staged (Semver.display target))) anyFacts) known := by
  have sound : site.Sound Version known := has_sound backed
  obtain ⟨part, holds, kept, underway, ⟨bytes, stored, genuine⟩, idle, isBackup⟩ := backed
  have demand : site.Demand Version known
      (.rename (site.exe.staged (Semver.display target)) site.exe.path) := by
    refine ⟨sound, ?_, nofun⟩
    rintro _ _ ⟨⟩
    exact ⟨rfl, idle, part, holds, kept.paused⟩
  apply ends_attempt
  apply Lock.keeps_inside holds (fun _ => rfl) demand
  intro answer now moves
  cases moves with
  | files acts => cases acts with
    | notRenamed _ _ error =>
        have still := underway_snoc underway
          ⟨.rename (site.exe.staged (Semver.display target)) site.exe.path, .error error⟩ nofun nofun
        exact ⟨_, rfl, kept, still, trivial⟩
    | renamed _ _ found =>
        cases stored.symm.trans found
        refine ⟨_, rfl, List.mem_concat_self, bytes, Map.get_insert_same _ _ _, ?_, kept.paused,
          genuine.append _⟩
        rw [Map.get_insert, if_neg (backup_ne_path site.exe), Map.get_remove,
          if_neg (backup_ne_staged site.exe _)]
        exact isBackup

theorem choose_assets_ok {releases : List GithubRelease} {name checksumUrl : String}
    (chosen : chooseAssets releases target name = .ok (binaryUrl, checksumUrl)) :
    ∃ release, releaseFor releases target = some release ∧ assetUrl release name = some binaryUrl ∧
      assetUrl release (name ++ ".sha256") = some checksumUrl := by
  unfold chooseAssets at chosen
  split at chosen
  · cases chosen
  · rename_i release found
    obtain ⟨first, isFirst, rest⟩ := except_bind_ok chosen
    obtain ⟨second, isSecond, same⟩ := except_bind_ok rest
    cases same
    unfold assetOf at isFirst isSecond
    split at isFirst
    · rename_i binary isBinary
      cases isFirst
      split at isSecond
      · rename_i checksum isChecksum
        cases isSecond
        exact ⟨release, found, isBinary, isChecksum⟩
      · cases isSecond
    · cases isFirst

theorem choose_asset_ok {build : Build} {name : String} (chosen : chooseAsset build target = .ok name) :
    ∃ current : Version, currentVersion Version build = .ok current ∧ current < target ∧
      platformAssetName build = some name := by
  unfold chooseAsset at chosen
  obtain ⟨current, isCurrent, rest⟩ := except_bind_ok chosen
  split_ifs at rest with old
  split at rest
  · cases rest
  · rename_i asset isAsset
    cases rest
    exact ⟨current, isCurrent, not_le.mp old, isAsset⟩

/-- The path of the executable, as every call of `current_exe` has it. -/
theorem current_exe_ends (facts : Guarded → UpdateLog → Prop) (lasting : Lasting facts)
    (has : site.Has none facts known) :
    site.Ends Version (attempt internal (ask .currentExe))
      (fun path after => path = site.exe.path ∧ site.Has none facts after)
      (site.Has none anyFacts) known := by
  have demand : site.Demand Version known .currentExe := away_demand trivial (has_sound has)
  apply ends_attempt
  apply Lock.keeps_outside (fun _ => rfl) demand
  intro answer sees
  have onward := onward_snoc known.2 .currentExe trivial answer
  have later : site.Has none facts (known.1, known.2 ++ [⟨.currentExe, answer⟩]) :=
    has.onward lasting rfl onward
  cases answer with
  | error _ => exact later.weaken fun _ _ _ => trivial
  | ok path => exact ⟨sees, later⟩

def Listed (releases : List GithubRelease) (_ : Guarded) (log : UpdateLog) : Prop :=
  ∃ repo, ⟨.fetchReleases repo, .releases releases⟩ ∈ log

theorem listed_lasting (releases : List GithubRelease) : Lasting (Listed releases) := by
  rintro part log more ⟨new, rfl, -⟩ ⟨repo, listed⟩
  exact ⟨repo, List.mem_append_left _ listed⟩

theorem Site.Has.any (has : site.Has left facts known) : site.Has left anyFacts known :=
  has.weaken fun _ _ _ => trivial

theorem replace_ends (has : site.Has none anyFacts known)
    (chosen : Chosen site.build target binaryUrl expected known.2) :
    site.Ends Version (replaceExecutable site.build site.sha256Hex patience binaryUrl expected
        (site.exe.staged (Semver.display target)) site.exe.path target)
      (fun _ after => ∃ part, after.1 = some part ∧ site.Verified target after.2 part)
      (site.Has none anyFacts) known := by
  apply outcome_chain (ends_discarding (stage_binary_ends patience has chosen))
  intro _ staged ready
  apply outcome_chain (ends_discarding (wait_ends patience ready))
  intro _ waited idle
  apply outcome_chain (ends_discarding (copy_ends idle))
  intro _ copied backed
  exact ends_discarding (rename_ends backed)

theorem ask_keeps {op : UpdateOp} (away : Away op) (has : site.Has left facts known)
    (lasting : Lasting facts) :
    site.Keeps Version (ask op) (fun _ after => site.Has left facts after) known := by
  apply Lock.keeps_outside (away_outside away) (away_demand away (has_sound has))
  intro answer _
  exact has.onward lasting rfl (onward_snoc known.2 op away answer)

/-- An install that fails leaves no staged file; one that succeeds has replaced the executable. -/
theorem install_ends (has : site.Has none anyFacts known) :
    site.Ends Version (install site.build site.sha256Hex patience target)
      (fun path after => path = site.exe.path ∧
        ∃ part, after.1 = some part ∧ site.Verified target after.2 part)
      (site.Has none anyFacts) known := by
  have picks : site.Ends Version (ExceptT.mk (.pure (chooseAsset site.build target)))
      (fun name after => site.Has none anyFacts after ∧ chooseAsset site.build target = .ok name)
      (site.Has none anyFacts) known :=
    outcome_decided (fun _ chosen => ⟨has, chosen⟩) fun _ _ => has
  apply outcome_chain picks
  rintro name _ ⟨has, isName⟩
  obtain ⟨current, isCurrent, newer, platform⟩ := choose_asset_ok isName
  have reads := @ask_keeps site Version _ _ _ _ .readRepo trivial has any_lasting
  apply outcome_lift_chain reads
  intro repo _ has
  apply outcome_chain (ends_away Version has any_lasting (fetch_releases_leaves site.build repo _))
  rintro releases afterList ⟨has, listed⟩
  have hasList : site.Has none (Listed releases) afterList := by
    obtain ⟨part, holds, kept, underway, -⟩ := has
    exact ⟨part, holds, kept, underway, listed⟩
  have selects : site.Ends Version (ExceptT.mk (.pure (chooseAssets releases target name)))
      (fun urls after => site.Has none (Listed releases) after ∧
        chooseAssets releases target name = .ok urls) (site.Has none anyFacts) afterList :=
    outcome_decided (fun _ chosen => ⟨hasList, chosen⟩) fun _ _ => hasList.any
  apply outcome_chain selects
  rintro ⟨binaryUrl, checksumUrl⟩ _ ⟨has, areUrls⟩
  obtain ⟨release, found, binary, checksum⟩ := choose_assets_ok areUrls
  apply outcome_chain (current_exe_ends _ (listed_lasting releases) has)
  rintro exe afterExe ⟨rfl, has⟩
  have above : site.Ends Version (ExceptT.mk (.pure (parentOf site.exe.path)))
      (fun dir after => site.Has none (Listed releases) after ∧ dir = site.exe.dir)
      (site.Has none anyFacts) afterExe := by
    apply outcome_decided
    · intro dir parent
      unfold parentOf at parent
      rw [parent_path] at parent
      exact ⟨has, (Except.ok.inj parent).symm⟩
    · exact fun _ _ => has.any
  apply outcome_chain above
  rintro _ afterDir ⟨has, rfl⟩
  have client : Leaves awayRule (attempt internal (ask .httpClient)) afterDir.2 fun _ _ => True :=
    leaves_attempt (recorded_call trivial fun _ _ _ => trivial)
  apply outcome_chain ((ends_away Version has (listed_lasting releases) client).mono
    (fun _ _ held => held) fun _ held => held.any)
  rintro _ afterClient ⟨has, -⟩
  apply outcome_chain ((ends_away Version has (listed_lasting releases)
    (fetch_checksum_leaves checksumUrl _)).mono (fun _ _ held => held) fun _ held => held.any)
  rintro expected afterSum ⟨has, text, fetched, parsed⟩
  have chosen : Chosen site.build target binaryUrl expected afterSum.2 := by
    obtain ⟨_, -, -, -, repo, listed⟩ := has
    exact ⟨current, repo, releases, release, name, checksumUrl, text, isCurrent, newer, listed,
      found, platform, binary, checksum, fetched, parsed⟩
  apply outcome_chain (replace_ends patience has.any chosen)
  exact fun _ after replaced => outcome_return ⟨rfl, replaced⟩

/-- A failed install lets deployments go on and gives the lock back. -/
theorem resuming_ends (ends : site.Ends Version program success (site.Has none anyFacts) known) :
    site.Ends Version (resuming program) success site.Free known := by
  apply Always.bind ends
  intro result after held
  cases result with
  | ok value => exact always_pure.mpr held
  | error error =>
      have demand : site.Demand Version after (.setPaused false) :=
        demand_of (has_sound held) nofun nofun
      obtain ⟨part, holds, kept, underway, -⟩ := held
      apply always_bind.mpr
      apply Lock.keeps_inside holds (fun _ => rfl) demand
      intro answer now moves
      have rest : site.Rest now := by
        cases moves with
        | paused => exact ⟨kept.exe, rfl, kept.tidy⟩
        | files acts => cases acts
      have resumed := unreplaced_snoc underway.unreplaced ⟨.setPaused false, answer⟩ nofun
      have demandThen : site.Demand Version
          (some now, after.2 ++ [⟨.setPaused false, answer⟩]) .clearInstalling := by
        refine demand_of (Or.inl ⟨resumed, ?_⟩) nofun nofun
        rintro _ ⟨⟩
        exact rest.exe
      apply always_bind.mpr
      apply Lock.keeps_gives rfl rest (fun _ => rfl) demandThen
      exact fun cleared => always_pure.mpr
        ⟨rfl, unreplaced_snoc resumed ⟨.clearInstalling, cleared⟩ nofun⟩

theorem dir_is_writable_away (dir : Option FilePath) : (dirIsWritable dir).Calls Away := by
  cases dir with
  | none => exact calls_pure _
  | some dir =>
      apply Calls.bind (calls_perform trivial)
      intro created
      cases created with
      | false => exact calls_pure _
      | true => exact Calls.bind (calls_perform trivial) fun _ => calls_pure _

theorem install_blocker_away : (installBlocker build).Calls Away := by
  unfold installBlocker
  split_ifs
  · exact calls_pure _
  apply Calls.bind (calls_perform trivial)
  intro answer
  cases answer with
  | error error => exact calls_pure _
  | ok exe =>
      dsimp only
      split_ifs
      · exact calls_pure _
      apply Calls.bind (dir_is_writable_away _)
      intro writable
      cases writable with
      | true => exact calls_pure _
      | false => exact calls_pure _

/-- A request that installs has replaced the executable; any other has given the lock back. -/
theorem install_update_ends (text : String) (free : site.Free known) :
    site.Ends Version (@installUpdate Version _ site.build site.sha256Hex patience text)
      (fun response after => ∃ (part : Guarded) (target : Version), after.1 = some part ∧
        site.Verified target after.2 part ∧ response = ⟨Semver.display target, true⟩)
      site.Free known := by
  have admin : site.Ends Version (ExceptT.mk (ask .requireAdmin)) (fun _ after => site.Free after)
      site.Free known := ends_free free (calls_perform trivial)
  apply outcome_chain admin
  intro _ known free
  apply outcome_lift_chain (keeps_free free (install_blocker_away site.build))
  intro blocker known free
  cases blocker with
  | some blocker => exact outcome_throw free
  | none =>
      dsimp only
      split
      · exact outcome_throw free
      rename_i target isTarget
      have swaps : site.Keeps Version (ask .swapInstalling) (fun (held : Bool) after =>
          if held then site.Free after
          else Unreplaced site.exe after.2 ∧ ∃ part, after.1 = some part ∧ site.Rest part) known := by
        have demand : site.Demand Version known .swapInstalling := demand_of free.sound nofun nofun
        have still := fun answer => unreplaced_snoc free.2 ⟨.swapInstalling, answer⟩ nofun
        apply Lock.keeps_asks _ demand
        · intro answer part takes _ rest
          cases answer with
          | true => cases takes
          | false => exact ⟨still _, part, rfl, rest⟩
        · intro answer outside
          cases answer with
          | true => exact ⟨free.1, still _⟩
          | false => cases outside
        · intro answer
          cases answer with
          | true => exact Or.inr rfl
          | false => exact Or.inl rfl
      apply outcome_lift_chain swaps
      intro held known swapped
      cases held with
      | true => exact outcome_throw swapped
      | false =>
          obtain ⟨unreplaced, part, holds, rest⟩ := swapped
          have pauses : site.Keeps Version (ask (.setPaused true))
              (fun _ after => site.Has none anyFacts after) known := by
            have demand : site.Demand Version known (.setPaused true) := by
              refine demand_of (Or.inl ⟨unreplaced, fun other same => ?_⟩) nofun nofun
              cases holds.symm.trans same
              exact rest.exe
            apply Lock.keeps_inside holds (fun _ => rfl) demand
            intro answer now moves
            have underway : site.Underway (known.2 ++ [⟨.setPaused true, answer⟩]) :=
              ⟨since_snoc _ rfl, unreplaced_snoc unreplaced _ nofun⟩
            cases moves with
            | paused => exact ⟨_, rfl, ⟨rest.exe, rfl, rest.tidy⟩, underway, trivial⟩
            | files acts => cases acts
          apply outcome_lift_chain pauses
          intro _ known has
          apply outcome_chain (resuming_ends (install_ends patience has))
          rintro path known ⟨rfl, part, holds, verified⟩
          have restarts : site.Keeps Version (ask (.restart site.exe.path)) (fun _ after =>
              ∃ part, after.1 = some part ∧ site.Verified target after.2 part) known := by
            have demand : site.Demand Version known (.restart site.exe.path) := by
              refine ⟨Or.inr ⟨part, target, holds, verified⟩, nofun, ?_⟩
              rintro _ ⟨⟩
              exact ⟨rfl, part, target, holds, verified⟩
            apply Lock.keeps_outside (fun _ => rfl) demand
            exact fun _ _ => ⟨part, holds, verified.append _⟩
          apply outcome_lift_chain restarts
          rintro _ known ⟨part, holds, verified⟩
          exact outcome_return ⟨part, target, holds, verified, rfl⟩

theorem check_update_away : (checkUpdate Version build).run.Calls Away := by
  apply Calls.run_bind (calls_perform trivial)
  intro _
  apply Calls.run_lift_bind (calls_perform trivial)
  intro repo
  apply Calls.run_bind (calls_pure _)
  intro current
  have fetches : (fetchReleases build repo).run.Calls Away := by
    unfold fetchReleases
    dsimp only
    split_ifs
    · exact calls_run_throw _
    apply Calls.run_bind
    · exact Calls.bind (calls_perform trivial) fun _ => calls_pure _
    intro _
    apply Calls.run_lift_bind (calls_perform trivial)
    intro answer
    cases answer with
    | sendFailed error => exact calls_run_throw _
    | status code shown =>
        dsimp only
        split_ifs
        · exact calls_run_throw _
        · exact calls_run_throw _
    | unreadable error => exact calls_run_throw _
    | releases releases => exact calls_run_pure _
  apply Calls.run_bind fetches
  intro releases
  apply Calls.run_lift_bind (install_blocker_away build)
  exact fun _ => calls_run_pure _

end Requests

section Runs

variable {site : Site} {Version : Type} [Semver Version] {Thread : Type} [DecidableEq Thread]

/-- The server as it was started, with the requests it gets. -/
def serving (site : Site) (Version : Type) [Semver Version] (tasks : Thread → Task)
    (files : Map FilePath Bytes) : Pool UpdateFace Thread (Except ApiError Reply) ServerState :=
  ⟨fun thread => (tasks thread).program Version site.build site.sha256Hex, ⟨files, false, false⟩⟩

abbrev Serves (site : Site) (Version : Type) [Semver Version] (tasks : Thread → Task)
    (files : Map FilePath Bytes) (history : List (Event UpdateFace Thread))
    (pool : Pool UpdateFace Thread (Except ApiError Reply) ServerState) : Prop :=
  Pool.Trace (server site.exe site.stuck).can (fun _ _ _ => True)
    (serving site Version tasks files) history pool

variable (site Version) in
/-- How a request leaves the lock. -/
def Answered (result : Except ApiError Reply) (after : site.Known) : Prop :=
  match result with
  | .ok (.installed response) => ∃ (part : Guarded) (target : Version), after.1 = some part ∧
      site.Verified target after.2 part ∧ response = ⟨Semver.display target, true⟩
  | _ => site.Free after

theorem task_keeps (task : Task) : site.Keeps Version
    (task.program Version site.build site.sha256Hex) (Answered site Version) (none, []) := by
  have idle : site.Free (none, []) := ⟨rfl, fun _ => List.not_mem_nil⟩
  cases task with
  | check =>
      apply (keeps_free idle (check_update_away site.build)).bind
      intro result after free
      apply always_pure.mpr
      cases result with
      | ok response => exact free
      | error error => exact free
  | install patience text =>
      apply Always.bind (install_update_ends patience text idle)
      intro result after held
      apply always_pure.mpr
      cases result with
      | ok response => exact held
      | error error => exact held

variable {tasks : Thread → Task} {files : Map FilePath Bytes}
  {history : List (Event UpdateFace Thread)}
  {pool : Pool UpdateFace Thread (Except ApiError Reply) ServerState}

theorem serves_locked (start : site.Rest ⟨files, false⟩)
    (run : Serves site Version tasks files history pool) :
    Pool.Locked (installing site.exe site.stuck) site.Rest (site.Demand Version)
      (Answered site Version) history pool := by
  have initial : site.Rest ((installing site.exe site.stuck).part
      (serving site Version tasks files).state) := start
  exact Pool.Trace.locked installing_guards rfl initial (fun thread => task_keeps (tasks thread)) run

variable {response : InstallUpdateResponse}

/-- What a thread has replaced, everyone sees. -/
theorem answered_verified {thread : Thread}
    (locked : Pool.Locked (installing site.exe site.stuck) site.Rest (site.Demand Version)
      (Answered site Version) history pool)
    (done : pool.threads thread = .pure (.ok (.installed response))) :
    ∃ target : Version, site.Verified target (Pool.own thread history) pool.state.guarded ∧
      response = ⟨Semver.display target, true⟩ ∧ pool.state.installing = true := by
  obtain ⟨owner, held, -, keeps⟩ := locked
  have ended := keeps thread
  rw [done] at ended
  obtain ⟨part, target, holds, verified, same⟩ := always_pure.mp ended
  obtain ⟨rfl, rfl⟩ := Pool.owner_of_known holds
  exact ⟨target, verified, same, held⟩

def demoExe : Executable := ⟨[.rootDir, .normal "opt".toList], "containr", by decide⟩

def demoHash : String := "ba7816bf8f01cfea414140de5dae2223b00361a396177a9cb410ff61f20015ad"

def demoSite : Site :=
  ⟨demoBuild, fun _ => demoHash, demoExe, [1, 2], false⟩

/-- The stream sends a chunk or ends; all but the last rename succeeds. -/
def demoAnswers (replaces : Bool) (chunk : Option Bytes) : (server demoExe false).Policy
  | .requireAdmin, _ => Except.ok ()
  | .readRepo, _ => "containr/containr"
  | .currentExe, _ => Option.none
  | .createProbe _, _ => true
  | .deploymentRunning, _ | .deadlinePassed, _ => false
  | .fetchReleases _, _ => ReleaseReply.releases [demoRelease]
  | .fetchText _, _ => Except.ok demoHash
  | .chunk _, _ => Except.ok chunk
  | .runVersion _, _ => VersionRun.exited true "containr 0.2.0"
  | .writeAll _ _, _ => Except.ok ()
  | .copy _ _, _ => Except.ok ()
  | .httpClient, _ | .get _, _ | .createFile _, _ | .syncAll _, _ | .setExecutable _, _
  | .removeFile _, _ => Except.ok ()
  | .rename _ _, _ => if replaces then Except.ok () else Except.error "text file busy"
  | .removeProbe _, _ | .swapInstalling, _ | .clearInstalling, _ | .setPaused _, _
  | .restart _, _ => ()

def demoTurns (replaces : Bool) (turns : List (Bool × Option Bytes)) :
    List (Bool × (server demoExe false).Policy) :=
  turns.map fun turn => (turn.1, demoAnswers replaces turn.2)

/-- Another request comes while one installs. -/
def demoInstall : List (Bool × Option Bytes) :=
  List.replicate 10 (true, some [97, 98, 99]) ++ List.replicate 5 (false, none) ++
    List.replicate 5 (true, some [97, 98, 99]) ++ List.replicate 8 (true, none)

def demoFiles : Map FilePath Bytes := Map.empty.insert demoExe.path [1, 2]

def demoRename : UpdateOp := .rename (demoExe.staged "0.2.0") demoExe.path

def demoTasks : Bool → Task := fun _ => .install 3 "0.2.0"

def demoServing : Pool UpdateFace Bool (Except ApiError Reply) ServerState :=
  serving demoSite DemoVersion demoTasks demoFiles

def answeredWith (program : Prog (Except ApiError Reply)) : Option InstallUpdateResponse :=
  match program.returned with
  | some (.ok (.installed response)) => some response
  | _ => none

theorem demo_turns_admitted (replaces : Bool) (turns : List (Bool × Option Bytes)) :
    ∀ entry ∈ demoTurns replaces turns,
      ∀ op state, (server demoExe false).Admits op (entry.2 op state) state := by
  intro entry member op state
  obtain ⟨⟨thread, chunk⟩, -, rfl⟩ := List.mem_map.mp member
  cases op with
  | _ => trivial

/-- No staged file lies beside the executable at the start. -/
theorem demo_rest : demoSite.Rest ⟨demoFiles, false⟩ where
  exe := Map.get_insert_same _ _ _
  resumed := rfl
  tidy _ version _ := by
    have other : demoExe.staged version ≠ demoExe.path := staged_ne_path demoExe version
    change demoFiles.get (demoExe.staged version) = none
    unfold demoFiles
    rw [Map.get_insert, if_neg other]
    rfl

variable {program : Prog (Except ApiError Reply)}

theorem answered_with_eq (answered : answeredWith program = some response) :
    program = .pure (.ok (.installed response)) := by
  unfold answeredWith at answered
  split at answered
  · rename_i other returned
    cases answered
    exact returned_eq_some returned
  · cases answered

theorem kept_sound {known : site.Known}
    (keeps : site.Keeps Version program (Answered site Version) known) :
    site.Sound Version known := by
  cases program with
  | pure result =>
      have ended := always_pure.mp keeps
      unfold Answered at ended
      split at ended
      · obtain ⟨part, target, holds, verified, -⟩ := ended
        exact Or.inr ⟨part, target, holds, verified⟩
      · exact ended.sound
  | call op next => exact (always_call.mp keeps).1.2.sound

theorem Site.Sound.unreplaced {known : site.Known} (sound : site.Sound Version known)
    (free : known.1 = none) : Unreplaced site.exe known.2 := by
  rcases sound with ⟨unreplaced, -⟩ | ⟨part, _, holds, -⟩
  · exact unreplaced
  · cases free.symm.trans holds

/-- The executable is the one that was started or, with that one kept beside it, the binary that
one install downloaded, hashed and ran. An install that answers has done just that, and no
other one has. -/
theorem executable_genuine (start : site.Rest ⟨files, false⟩)
    (run : Serves site Version tasks files history pool) :
    (pool.state.files.get site.exe.path = some site.initial ∧
        (∀ thread, Unreplaced site.exe (Pool.own thread history)) ∨
      ∃ (thread : Thread) (target : Version),
        site.Verified target (Pool.own thread history) pool.state.guarded ∧
          pool.state.installing = true ∧
          ∀ other, other ≠ thread → Unreplaced site.exe (Pool.own other history)) ∧
    ∀ thread response, pool.threads thread = .pure (.ok (.installed response)) →
      (∃ target : Version, site.Verified target (Pool.own thread history) pool.state.guarded ∧
        response = ⟨Semver.display target, true⟩) ∧
      ∀ other answer, pool.threads other = .pure (.ok (.installed answer)) → other = thread := by
  have locked := serves_locked start run
  obtain ⟨owner, held, free, keeps⟩ := id locked
  constructor
  · cases owner with
    | none =>
        refine Or.inl ⟨(free rfl).exe, fun thread => ?_⟩
        exact (kept_sound (keeps thread)).unreplaced (Pool.known_free
          (installing site.exe site.stuck) pool.state thread)
    | some thread =>
        have others : ∀ other, other ≠ thread → Unreplaced site.exe (Pool.own other history) :=
          fun other differs => (kept_sound (keeps other)).unreplaced (Pool.known_other _ _ differs)
        rcases kept_sound (keeps thread) with ⟨unreplaced, first⟩ | ⟨part, target, holds, verified⟩
        · refine Or.inl ⟨first _ (Pool.known_owner _ _ _), fun other => ?_⟩
          by_cases same : other = thread
          · rw [same]
            exact unreplaced
          · exact others other same
        · obtain ⟨-, rfl⟩ := Pool.owner_of_known holds
          exact Or.inr ⟨thread, target, verified, held, others⟩
  · intro thread response done
    obtain ⟨target, verified, same, -⟩ := answered_verified locked done
    refine ⟨⟨target, verified, same⟩, fun other answer otherDone => ?_⟩
    have first := keeps thread
    have second := keeps other
    rw [done] at first
    rw [otherDone] at second
    obtain ⟨_, _, holds, -⟩ := always_pure.mp first
    obtain ⟨_, _, otherHolds, -⟩ := always_pure.mp second
    have isOwner := (Pool.owner_of_known holds).1
    rw [(Pool.owner_of_known otherHolds).1] at isOwner
    exact Option.some.inj isOwner

theorem demo_genuine : ∃ history pool response,
    Serves demoSite DemoVersion demoTasks demoFiles history pool ∧
      pool.threads true = .pure (.ok (.installed response)) ∧
      (∃ target : DemoVersion,
        demoSite.Verified target (Pool.own true history) pool.state.guarded) ∧
      Unreplaced demoExe (Pool.own false history) := by
  have ran : ((Pool.execute (server demoExe false) (demoTurns true (demoInstall ++ [(true, none)]))
      demoServing).bind fun run => answeredWith (run.2.threads true)) = some ⟨"0.2.0", true⟩ := by
    decide +kernel
  obtain ⟨⟨history, pool⟩, executed, answered⟩ := Option.bind_eq_some_iff.mp ran
  have run : Serves demoSite DemoVersion demoTasks demoFiles history pool :=
    Pool.Trace.of_execute (demo_turns_admitted true _) executed
  have done := answered_with_eq answered
  obtain ⟨exe, installs⟩ := executable_genuine demo_rest run
  obtain ⟨⟨target, verified, -⟩, -⟩ := installs true _ done
  refine ⟨history, pool, _, run, done, ⟨target, verified⟩, ?_⟩
  rcases exe with ⟨-, unreplaced⟩ | ⟨thread, other, -, -, others⟩
  · exact unreplaced false
  · by_cases same : thread = true
    · exact others false (by rw [same]; decide)
    · exact absurd verified.1 (others true (fun is => same is.symm) _)

/-- Between installs the executable is the first one, deployments go on, and no staged file is
left, as long as files can be removed. -/
theorem idle_restored (start : site.Rest ⟨files, false⟩)
    (run : Serves site Version tasks files history pool) (free : pool.state.installing = false) :
    pool.state.files.get site.exe.path = some site.initial ∧ pool.state.paused = false ∧
      (site.stuck = false → ∀ version, pool.state.files.get (site.exe.staged version) = none) := by
  obtain ⟨owner, held, freely, -⟩ := serves_locked start run
  have unowned : owner = none := by
    cases owner with
    | none => rfl
    | some owner => cases free.symm.trans held
  have rest := freely unowned
  exact ⟨rest.exe, rest.resumed, fun removable version => rest.tidy removable version nofun⟩

def failedWith (program : Prog (Except ApiError Reply)) : Option Nat :=
  match program.returned with
  | some (.error error) => some error.status
  | _ => none

/-- One install fails at the rename, another request was refused meanwhile. -/
theorem demo_idle : ∃ history pool,
    Serves demoSite DemoVersion demoTasks demoFiles history pool ∧
      (failedWith (pool.threads true), failedWith (pool.threads false)) = (some 500, some 409) ∧
      (∃ call ∈ Pool.own true history, call.1 = demoRename) ∧
      pool.state.files.get demoExe.path = some [1, 2] ∧ pool.state.paused = false ∧
      ∀ version, pool.state.files.get (demoExe.staged version) = none := by
  have ran : ((Pool.execute (server demoExe false)
      (demoTurns false (demoInstall ++ List.replicate 3 (true, none))) demoServing).map
        fun (run : List (Event UpdateFace Bool) × Pool UpdateFace Bool _ ServerState) =>
        (run.2.state.installing,
          (failedWith (run.2.threads true), failedWith (run.2.threads false)),
          decide (∃ call ∈ (Pool.own true run.1 : UpdateLog), call.1 = demoRename))) =
        some (false, (some 500, some 409), true) := by
    decide +kernel
  obtain ⟨⟨history, pool⟩, executed, facts⟩ := Option.map_eq_some_iff.mp ran
  obtain ⟨free, rest⟩ := Prod.mk.inj facts
  obtain ⟨failed, renames⟩ := Prod.mk.inj rest
  have run : Serves demoSite DemoVersion demoTasks demoFiles history pool :=
    Pool.Trace.of_execute (demo_turns_admitted false _) executed
  obtain ⟨exe, resumed, tidy⟩ := idle_restored demo_rest run free
  exact ⟨history, pool, run, failed, of_decide_eq_true renames, exe, resumed, tidy rfl⟩

/-- Whatever the other requests do, the executable is renamed over only while deployments are
paused, after none was seen running in that pause, and only a checked binary is started. -/
theorem replaced_while_idle (start : site.Rest ⟨files, false⟩)
    {front back : List (Event UpdateFace Thread)} {event : Event UpdateFace Thread}
    (run : Serves site Version tasks files (front ++ event :: back) pool) :
    ∃ before, Serves site Version tasks files front before ∧
      (∀ source target, event.op = .rename source target → target = site.exe.path ∧
        Idle (Pool.own event.thread front) ∧ before.state.paused = true) ∧
      ∀ path, event.op = .restart path → path = site.exe.path ∧ ∃ target : Version,
        site.Verified target (Pool.own event.thread front) before.state.guarded := by
  obtain ⟨before, after, traced, taken⟩ := Pool.Trace.cut run
  obtain ⟨owner, -, -, keeps⟩ := serves_locked start traced
  obtain ⟨next, ready, -, -⟩ := taken.own
  have mine := keeps event.thread
  rw [ready] at mine
  have demand := (always_call.mp mine).1.2
  refine ⟨before, traced, ?_, ?_⟩
  · intro source target renames
    obtain ⟨isExe, idle, part, holds, paused⟩ := demand.renames source target renames
    obtain ⟨-, rfl⟩ := Pool.owner_of_known holds
    exact ⟨isExe, idle, paused⟩
  · intro path restarts
    obtain ⟨isExe, part, target, holds, verified⟩ := demand.restarts path restarts
    obtain ⟨-, rfl⟩ := Pool.owner_of_known holds
    exact ⟨isExe, target, verified⟩

theorem demo_replaced : ∃ front event pool,
    Serves demoSite DemoVersion demoTasks demoFiles (front ++ [event]) pool ∧
      event.op = demoRename ∧
      Idle (Pool.own event.thread front) := by
  have ran : ((Pool.execute (server demoExe false) (demoTurns true demoInstall)
      demoServing).bind fun run => run.1.getLast?.map fun event => event.op) =
        some demoRename := by
    decide +kernel
  obtain ⟨⟨history, pool⟩, executed, isLast⟩ := Option.bind_eq_some_iff.mp ran
  obtain ⟨event, ends, renames⟩ := Option.map_eq_some_iff.mp isLast
  obtain ⟨front, rfl⟩ := List.getLast?_eq_some_iff.mp ends
  have run : Serves demoSite DemoVersion demoTasks demoFiles (front ++ [event]) pool :=
    Pool.Trace.of_execute (demo_turns_admitted true _) executed
  obtain ⟨_, -, replaces, -⟩ := replaced_while_idle demo_rest run
  exact ⟨front, event, pool, run, renames, (replaces _ _ renames).2.1⟩

end Runs

end Containr.Updates
