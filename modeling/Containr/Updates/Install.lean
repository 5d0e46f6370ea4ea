import Containr.Effect.Locked
import Containr.Effect.Map
import Containr.Updates.Releases

/-!
# Installing an update

The rest of `containr-api/src/handlers/updates.rs`. `INSTALLING` is the only lock. What GitHub,
the file system and a started binary answer is chosen outside; a version has no `/`, so a staged
file lies beside the executable.
-/

namespace Containr.Updates

open Containr.Effect

abbrev FilePath : Type := List Path.Component

abbrev Bytes : Type := List UInt8

inductive ReleaseReply where
  | sendFailed (error : String)
  | status (code : Nat) (shown : String)
  | unreadable (error : String)
  | releases (releases : List GithubRelease)
deriving DecidableEq, Repr

/-- What became of `<binary> --version`. -/
inductive VersionRun where
  | timedOut
  | failed (error : String)
  | exited (success : Bool) (stdout : String)
deriving DecidableEq, Repr

structure InstallUpdateResponse where
  version : String
  restarting : Bool
deriving DecidableEq, Repr

inductive Reply where
  | checked (response : UpdateCheckResponse)
  | installed (response : InstallUpdateResponse)
deriving DecidableEq, Repr

inductive UpdateOp where
  | requireAdmin
  | readRepo
  | currentExe
  | createProbe (dir : FilePath)
  | removeProbe (dir : FilePath)
  | swapInstalling
  | clearInstalling
  | setPaused (paused : Bool)
  | deploymentRunning
  | deadlinePassed
  | httpClient
  | fetchReleases (repo : String)
  | fetchText (url : String)
  | get (url : String)
  | chunk (url : String)
  | createFile (path : FilePath)
  | writeAll (path : FilePath) (bytes : Bytes)
  | syncAll (path : FilePath)
  | setExecutable (path : FilePath)
  | runVersion (path : FilePath)
  | removeFile (path : FilePath)
  | copy (source target : FilePath)
  | rename (source target : FilePath)
  | restart (exe : FilePath)
deriving DecidableEq, Repr

def UpdateOp.Answer : UpdateOp → Type
  | .requireAdmin => Except ApiError Unit
  | .readRepo => String
  | .currentExe => Except String FilePath
  | .createProbe _ | .swapInstalling | .deploymentRunning | .deadlinePassed => Bool
  | .removeProbe _ | .clearInstalling | .setPaused _ | .restart _ => Unit
  | .fetchReleases _ => ReleaseReply
  | .fetchText _ => Except String String
  | .chunk _ => Except String (Option Bytes)
  | .runVersion _ => VersionRun
  | .httpClient | .get _ | .createFile _ | .writeAll _ _ | .syncAll _ | .setExecutable _
  | .removeFile _ | .copy _ _ | .rename _ _ => Except String Unit

abbrev UpdateFace : Interface := ⟨UpdateOp, UpdateOp.Answer⟩

abbrev Prog (Value : Type) : Type := Program UpdateFace Value

abbrev Fallible (Value : Type) : Type := ExceptT ApiError (Program UpdateFace) Value

def ask (op : UpdateOp) : Prog op.Answer := @Program.perform UpdateFace op

/-- `map_err` and `?`. -/
def attempt {Value : Type} (mapErr : String → ApiError) (program : Prog (Except String Value)) :
    Fallible Value :=
  ExceptT.mk (program.bind fun result => .pure (result.mapError mapErr))

def lastName (path : FilePath) : Option String :=
  match path.getLast? with
  | some (.normal name) => some (String.ofList name)
  | _ => none

/-- `with_file_name`. -/
def withFileName (path : FilePath) (name : String) : FilePath :=
  (if (lastName path).isSome then path.dropLast else path) ++ [.normal name.toList]

def stagedMark : String := ".containr-update-"

def stagedPath (dir : FilePath) (version : String) : FilePath :=
  dir ++ [.normal (stagedMark ++ version).toList]

/-- The previous binary, for a manual rollback. -/
def backupPath (exe : FilePath) : FilePath :=
  withFileName exe ((lastName exe).getD "containr" ++ ".previous")

/-- `display`. -/
def displayPath (path : FilePath) : String :=
  let shown : Path.Component → String
    | .rootDir => ""
    | .curDir => "."
    | .parentDir => ".."
    | .normal name => String.ofList name
  if path = [.rootDir] then "/" else Text.join "/" (path.map shown)

section Handlers

variable {Version : Type} [Semver Version] (build : Build) (sha256Hex : Bytes → String)

def dirIsWritable (dir : Option FilePath) : Prog Bool :=
  match dir with
  | none => return false
  | some dir => do
      let created : Bool ← ask (.createProbe dir)
      if created then
        ask (.removeProbe dir)
        return true
      else return false

def installBlocker : Prog (Option String) := do
  if (platformAssetName build).isNone then
    return some s!"self-update isn't supported on {build.os}/{build.arch}"
  else do
    match ← ask .currentExe with
    | .error error => return some s!"can't locate the containr binary: {error}"
    | .ok exe =>
        if isCargoBuild exe then
          return some "containr runs from a source build. update it with git pull and rebuild"
        else do
          let writable ← dirIsWritable (Path.parent exe)
          if writable then return none
          else
            return some s!"containr can't write to {displayPath ((Path.parent exe).getD exe)}"

def fetchReleases (repo : String) : Fallible (List GithubRelease) := do
  let repo := Text.trim repo
  if !validRepo repo then
    throw ⟨400, "updates.repo must be owner/repo, got " ++ build.debug repo⟩
  else do
    attempt internal (ask .httpClient)
    match ← liftM (ask (.fetchReleases repo)) with
    | .sendFailed error => throw (badGateway "reach github" error)
    | .status code shown =>
        if code = 403 || code = 429 then
          throw ⟨502, "github rate limit reached. try again later"⟩
        else throw ⟨502, s!"github returned {shown} for {repo}"⟩
    | .unreadable error => throw (badGateway "read github releases" error)
    | .releases releases => return releases

def checkUpdate (Version : Type) [Semver Version] (build : Build) : Fallible UpdateCheckResponse := do
  ExceptT.mk (ask .requireAdmin)
  let repo : String ← liftM (ask .readRepo)
  let current : Version ← ExceptT.mk (.pure (currentVersion Version build))
  let releases ← fetchReleases build repo
  let blocker ← liftM (installBlocker build)
  return checkResponse build releases current blocker

def fetchChecksum (url : String) : Fallible String := do
  let text ← attempt (badGateway "download checksum") (ask (.fetchText url))
  match parseChecksum text with
  | some hash => return hash
  | none => throw ⟨502, "release checksum file is malformed"⟩

/-- The client gives up after a while, however the chunks come. -/
def downloadChunks (url : String) (path : FilePath) : Nat → Bytes → Fallible Bytes
  | 0, _ => throw (badGateway "download update" "operation timed out")
  | patience + 1, written => do
      match ← attempt (badGateway "download update") (ask (.chunk url)) with
      | none => return written
      | some chunk =>
          attempt internal (ask (.writeAll path chunk))
          downloadChunks url path patience (written ++ chunk)

def download (patience : Nat) (url : String) (path : FilePath) : Fallible String := do
  attempt (badGateway "download update") (ask (.get url))
  attempt internal (ask (.createFile path))
  let written ← downloadChunks url path patience []
  attempt internal (ask (.syncAll path))
  return sha256Hex written

def verifyBinaryVersion (path : FilePath) (target : Version) : Fallible Unit := do
  match ← liftM (ask (.runVersion path)) with
  | .timedOut => throw ⟨502, "the downloaded binary didn't respond to --version"⟩
  | .failed error => throw ⟨502, s!"the downloaded binary doesn't run here: {error}"⟩
  | .exited success stdout =>
      let reported : Option Version := (splitWhitespace stdout).getLast?.bind parseVersion
      if !success || reported ≠ some target then
        throw ⟨502, s!"the downloaded binary reports {build.debug (Text.trim stdout)}" ++
          s!", expected {Semver.display target}"⟩
      else return

def stageBinary (patience : Nat) (binaryUrl expected : String) (staged : FilePath)
    (target : Version) : Fallible Unit := do
  let actual ← download sha256Hex patience binaryUrl staged
  if actual ≠ expected then
    throw ⟨502, "downloaded binary doesn't match its sha256 checksum"⟩
  else do
    attempt internal (ask (.setExecutable staged))
    verifyBinaryVersion build staged target

def waitForRunningDeployment : Nat → Fallible Unit
  | 0 => throw ⟨409, "a deployment is still running. try again once it finishes"⟩
  | patience + 1 => do
      let running : Bool ← liftM (ask .deploymentRunning)
      if running then
        let late : Bool ← liftM (ask .deadlinePassed)
        if late then throw ⟨409, "a deployment is still running. try again once it finishes"⟩
        else waitForRunningDeployment patience
      else return

/-- `let _ = remove_file(..)`, and the error is returned. -/
def discarding {Value : Type} (staged : FilePath) (program : Fallible Value) : Fallible Value :=
  ExceptT.mk do
    match ← program.run with
    | .ok value => return .ok value
    | .error error =>
        let _ ← ask (.removeFile staged)
        return .error error

def assetOf (release : GithubRelease) (target : Version) (name : String) :
    Except ApiError String :=
  match assetUrl release name with
  | some url => .ok url
  | none => .error ⟨502, s!"release {Semver.display target} has no {name} asset"⟩

def chooseAssets (releases : List GithubRelease) (target : Version) (assetName : String) :
    Except ApiError (String × String) := do
  match releaseFor releases target with
  | none => .error ⟨400, s!"release {Semver.display target} not found"⟩
  | some release =>
      let binaryUrl ← assetOf release target assetName
      let checksumUrl ← assetOf release target (assetName ++ ".sha256")
      return (binaryUrl, checksumUrl)

/-- The checks before anything is looked up. -/
def chooseAsset (build : Build) (target : Version) : Except ApiError String := do
  let current ← currentVersion Version build
  if target ≤ current then
    .error ⟨400, s!"containr is already at {Semver.display current}"⟩
  else match platformAssetName build with
    | none => .error ⟨409, "self-update isn't supported on this platform"⟩
    | some name => .ok name

def parentOf (exe : FilePath) : Except ApiError FilePath :=
  match Path.parent exe with
  | some dir => .ok dir
  | none => .error (internal s!"{displayPath exe} has no parent directory")

/-- The part of `install` that touches files. -/
def replaceExecutable (patience : Nat) (binaryUrl expected : String) (staged exe : FilePath)
    (target : Version) : Fallible Unit := do
  discarding staged (stageBinary build sha256Hex patience binaryUrl expected staged target)
  -- a deployment that started before the pause gets to finish
  discarding staged (waitForRunningDeployment patience)
  discarding staged (attempt
    (fun error => internal s!"failed to back up {displayPath exe}: {error}")
    (ask (.copy exe (backupPath exe))))
  discarding staged (attempt
    (fun error => internal s!"failed to replace {displayPath exe}: {error}")
    (ask (.rename staged exe)))

def install (patience : Nat) (target : Version) : Fallible FilePath := do
  let assetName ← ExceptT.mk (.pure (chooseAsset build target))
  let repo : String ← liftM (ask .readRepo)
  let releases ← fetchReleases build repo
  let (binaryUrl, checksumUrl) ← ExceptT.mk (.pure (chooseAssets releases target assetName))
  let exe : FilePath ← attempt internal (ask .currentExe)
  let dir ← ExceptT.mk (.pure (parentOf exe))
  attempt internal (ask .httpClient)
  let expected ← fetchChecksum checksumUrl
  replaceExecutable build sha256Hex patience binaryUrl expected
    (stagedPath dir (Semver.display target)) exe target
  return exe

/-- After a failure deployments go on and another install may start. -/
def resuming {Value : Type} (program : Fallible Value) : Fallible Value :=
  ExceptT.mk do
    match ← program.run with
    | .ok value => return .ok value
    | .error error =>
        ask (.setPaused false)
        ask .clearInstalling
        return .error error

def installUpdate (patience : Nat) (version : String) : Fallible InstallUpdateResponse := do
  ExceptT.mk (ask .requireAdmin)
  match ← liftM (installBlocker build) with
  | some blocker => throw ⟨409, blocker⟩
  | none =>
      match (parseVersion version : Option Version) with
      | none => throw ⟨400, "invalid version"⟩
      | some target =>
          let installing : Bool ← liftM (ask .swapInstalling)
          if installing then throw ⟨409, "an update is already being installed"⟩
          else do
            liftM (ask (.setPaused true))
            let exe ← resuming (install build sha256Hex patience target)
            liftM (ask (.restart exe))
            return ⟨Semver.display target, true⟩

end Handlers

inductive Task where
  | check
  | install (patience : Nat) (version : String)
deriving DecidableEq, Repr

def Task.program (Version : Type) [Semver Version] (build : Build) (sha256Hex : Bytes → String) :
    Task → Prog (Except ApiError Reply)
  | .check => (checkUpdate Version build).run.bind fun result =>
      .pure (result.map Reply.checked)
  | .install patience version =>
      (@installUpdate Version _ build sha256Hex patience version).run.bind fun result =>
        .pure (result.map Reply.installed)

structure Executable where
  dir : FilePath
  name : String
  plain : Text.startsWith name stagedMark = false

def Executable.path (exe : Executable) : FilePath := exe.dir ++ [.normal exe.name.toList]

/-- The files beside the executable, and the two statics. -/
structure ServerState where
  files : Map FilePath Bytes
  installing : Bool
  paused : Bool

/-- What the outside world decides. A write that fails may have written a part. -/
def UpdateOp.Choice : UpdateOp → Type
  | .requireAdmin => Except ApiError Unit
  | .readRepo => String
  | .currentExe => Option String
  | .createProbe _ | .deploymentRunning | .deadlinePassed => Bool
  | .fetchReleases _ => ReleaseReply
  | .fetchText _ => Except String String
  | .chunk _ => Except String (Option Bytes)
  | .runVersion _ => VersionRun
  | .writeAll _ _ => Except (String × Nat) Unit
  | .copy _ _ => Except (String × Option Nat) Unit
  | .httpClient | .get _ | .createFile _ | .syncAll _ | .setExecutable _ | .removeFile _
  | .rename _ _ => Except String Unit
  | _ => Unit

def UpdateOp.exec (exe : Executable) :
    (op : UpdateOp) → op.Choice → ServerState → op.Answer × ServerState
  | .requireAdmin, result, state => (result, state)
  | .readRepo, repo, state => (repo, state)
  | .currentExe, none, state => (.ok exe.path, state)
  | .currentExe, some error, state => (.error error, state)
  | .createProbe _, created, state => (created, state)
  | .removeProbe _, _, state => ((), state)
  | .swapInstalling, _, state => (state.installing, { state with installing := true })
  | .clearInstalling, _, state => ((), { state with installing := false })
  | .setPaused paused, _, state => ((), { state with paused := paused })
  | .deploymentRunning, running, state => (running, state)
  | .deadlinePassed, late, state => (late, state)
  | .httpClient, result, state => (result, state)
  | .fetchReleases _, reply, state => (reply, state)
  | .fetchText _, text, state => (text, state)
  | .get _, result, state => (result, state)
  | .chunk _, answer, state => (answer, state)
  | .createFile path, .ok (), state => (.ok (), { state with files := state.files.insert path [] })
  | .createFile _, .error error, state => (.error error, state)
  | .writeAll path bytes, result, state =>
      let kept := match result with
        | .ok () => bytes
        | .error (_, count) => bytes.take count
      let files := match state.files.get path with
        | some content => state.files.insert path (content ++ kept)
        | none => state.files
      (result.mapError Prod.fst, { state with files := files })
  | .syncAll _, result, state => (result, state)
  | .setExecutable _, result, state => (result, state)
  | .runVersion _, run, state => (run, state)
  | .removeFile path, .ok (), state =>
      if (state.files.get path).isSome then
        (.ok (), { state with files := state.files.remove path })
      else (.error "No such file or directory", state)
  | .removeFile _, .error error, state => (.error error, state)
  | .copy source target, result, state => match state.files.get source with
      | none => (.error "No such file or directory", state)
      | some content => match result with
        | .ok () => (.ok (), { state with files := state.files.insert target content })
        | .error (error, none) => (.error error, state)
        | .error (error, some count) =>
            (.error error, { state with files := state.files.insert target (content.take count) })
  | .rename source target, .ok (), state => match state.files.get source with
      | none => (.error "No such file or directory", state)
      | some content =>
          (.ok (), { state with files := (state.files.remove source).insert target content })
  | .rename _ _, .error error, state => (.error error, state)
  | .restart _, _, state => ((), state)

/-- Files beside the executable can be removed, unless `stuck`. -/
def UpdateOp.Admits (stuck : Bool) : (op : UpdateOp) → op.Choice → ServerState → Prop
  | .removeFile _, .error _, _ => stuck = true
  | _, _, _ => True

def server (exe : Executable) (stuck : Bool) : Machine UpdateFace ServerState :=
  ⟨UpdateOp.Choice, UpdateOp.exec exe, UpdateOp.Admits stuck⟩

end Containr.Updates
