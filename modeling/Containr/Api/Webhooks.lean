import Containr.Api.Services
import Containr.Auth.Users
import Containr.Effect.Sum

/-!
# GitHub's push webhook, `containr-api/src/handlers/webhooks.rs`

A delivery is accepted when any secret of the installation signs it, the global one or that
of a user's GitHub app; the app it is for is looked up by repository and branch. The keyed
hash, the cipher, the glob patterns and the JSON reader come from outside. `deploy_webhook`
is in `Containr.Api.Services`.
-/

namespace Containr.Api.Webhooks

open Containr.Effect Containr.Api Containr.Api.Services

structure Repository where
  fullName : String
  cloneUrl : String
  htmlUrl : String
deriving DecidableEq, Repr

structure Commit where
  message : String
  id : String
  added : List String
  modified : List String
  removed : List String
deriving DecidableEq, Repr

structure PushEvent where
  ref : String
  after : String
  repository : Repository
  commits : List Commit
  headCommit : Option Commit
deriving DecidableEq, Repr

def PushEvent.changedPaths (push : PushEvent) : List String :=
  (push.commits.flatMap fun commit => commit.added ++ commit.modified ++ commit.removed).foldl
    (fun paths path => if paths.contains path then paths else paths ++ [path]) []

def extractBranch (ref : String) : Option String := Text.stripFront ref "refs/heads/"

/-- `replacen(mark, other, 1)`. -/
def replaceFirst (mark other : Char) : List Char → List Char
  | [] => []
  | ch :: rest => if ch = mark then other :: rest else ch :: replaceFirst mark other rest

def normalizeRepoUrl (url : String) : String :=
  let lower := Text.toAsciiLowercase (Text.trim url)
  let slashed := match Text.stripFront lower "git@" with
    | some rest => String.ofList (replaceFirst ':' '/' rest.toList)
    | none => lower
  let bare := ["https://", "http://", "ssh://", "git@", "www."].foldl Text.trimStartMatches slashed
  Text.trimEndText (Text.trimEndMatches bare '/') ".git"

def sameRepoUrl (left right : String) : Bool :=
  !(normalizeRepoUrl left).isEmpty && normalizeRepoUrl left = normalizeRepoUrl right

/-- `decrypt` takes the payload and the secret its key is derived from; a hash takes keys of
any length. -/
structure Libraries where
  hexDecode : String → Except String (List UInt8)
  hmacSha256 : (secret : String) → (payload : List UInt8) → List UInt8
  decrypt : (payload secret : String) → Except String String
  parsePush : List UInt8 → Except String PushEvent
  Glob : Type
  newGlob : String → Except String Glob
  buildGlobSet : List Glob → Except String (String → Bool)

/-- `keyOverride` is the environment variable `CONTAINR_ENCRYPTION_KEY`. -/
structure HookConfig where
  webhookSecret : String
  encryptionKey : String
  keyOverride : Option String
deriving DecidableEq, Repr

def resolveEncryptionSecret (config : HookConfig) : Option String :=
  (config.keyOverride.filter fun value => !value.isEmpty).or
    (if Text.blank config.encryptionKey then none else some (Text.trim config.encryptionKey))

def encryptedFront : String := "enc:"

def decryptValue (lib : Libraries) (config : HookConfig) (value : String) :
    Except String String :=
  let trimmed := Text.trim value
  let hasFront := Text.startsWith trimmed encryptedFront
  let payload := (Text.stripFront trimmed encryptedFront).getD trimmed
  match resolveEncryptionSecret config with
  | some secret =>
      match lib.decrypt payload secret with
      | .ok plaintext => .ok plaintext
      | .error message =>
          if hasFront then .error ("failed to decrypt value: " ++ message) else .ok payload
  | none => if hasFront then .error "encryption key is not configured" else .ok payload

def verifyWebhookSignature (lib : Libraries) (payload : List UInt8) (signature secret : String) :
    Except String Bool :=
  match Text.stripFront signature "sha256=" with
  | none => .error "validation error: invalid signature format"
  | some hex =>
      match lib.hexDecode hex with
      | .error message => .error ("validation error: invalid signature hex: " ++ message)
      | .ok bytes => .ok (lib.hmacSha256 secret payload = bytes)

def shouldTriggerForWatchPaths (lib : Libraries) (push : PushEvent) (watchPaths : List String) :
    Except String Bool :=
  if watchPaths.isEmpty then .ok true
  else if push.changedPaths.isEmpty then .ok true
  else do
    let globs ← watchPaths.mapM fun watchPath => lib.newGlob (Text.trim watchPath)
    let isMatch ← lib.buildGlobSet globs
    .ok (push.changedPaths.any isMatch)

/-- What is read of a `GithubAppConfig`; the secret is encrypted. -/
structure GithubAppConfig where
  ownerId : Uuid
  webhookSecret : String
deriving DecidableEq, Repr

structure Tenants where
  world : World
  users : List Auth.User
  githubApps : List GithubAppConfig
  config : HookConfig
deriving DecidableEq, Repr

inductive SecretOp where
  | readConfig
  | listUsers
  | getGithubApp (ownerId : Uuid)
deriving DecidableEq, Repr

def SecretOp.Answer : SecretOp → Type
  | .readConfig => HookConfig
  | .listUsers => Except String (List Auth.User)
  | .getGithubApp _ => Except String (Option GithubAppConfig)

abbrev HookEffects : Interface := Effects.sum ⟨SecretOp, SecretOp.Answer⟩

abbrev HookHandler (Value : Type) : Type := ExceptT ApiError (Program HookEffects) Value

/-- A fault of the store. -/
def SecretOp.Choice : SecretOp → Type
  | .readConfig => Unit
  | .listUsers | .getGithubApp _ => Option String

namespace Tenants

/-- `ORDER BY created_at ASC`. -/
def listUsers (tenants : Tenants) : List Auth.User :=
  tenants.users.insertionSort fun left right => left.createdAt ≤ right.createdAt

def githubApp (tenants : Tenants) (ownerId : Uuid) : Option GithubAppConfig :=
  tenants.githubApps.find? (·.ownerId = ownerId)

end Tenants

def SecretOp.read (tenants : Tenants) : (op : SecretOp) → op.Choice → op.Answer
  | .readConfig, _ => tenants.config
  | .listUsers, fault => Auth.faulty fault tenants.listUsers
  | .getGithubApp ownerId, fault => Auth.faulty fault (tenants.githubApp ownerId)

def HookChoice : HookEffects.Op → Type
  | .inl op => op.Choice
  | .inr op => op.Choice

def hookExec : (op : HookEffects.Op) → HookChoice op → Tenants → HookEffects.Answer op × Tenants
  | .inl op, choice, tenants =>
      ((op.exec choice tenants.world).1, { tenants with world := (op.exec choice tenants.world).2 })
  | .inr op, choice, tenants => (op.read tenants choice, tenants)

def HookAdmits : (op : HookEffects.Op) → HookChoice op → Tenants → Prop
  | .inl op, choice, tenants => op.Admits choice tenants.world
  | .inr _, _, _ => True

/-- The installation, faults included. -/
def tenancy : Machine HookEffects Tenants := ⟨HookChoice, hookExec, HookAdmits⟩

def SecretOp.call (op : SecretOp) : Program HookEffects op.Answer :=
  @Program.perform HookEffects (.inr op)

/-- A part that reads no secrets. -/
def onWorld {Value : Type} (program : Handler Value) : HookHandler Value :=
  ExceptT.mk program.run.inl

/-- `map_err(internal_error)`. -/
def orInternal {Value : Type} (program : Program HookEffects (Except String Value)) :
    HookHandler Value :=
  ExceptT.mk (program.bind fun result => .pure (match result with
    | .ok value => .ok value
    | .error _ => .error internalError))

def checked {Value : Type} (result : Except ApiError Value) : HookHandler Value :=
  ExceptT.mk (.pure result)

/-- A header that is no text counts as missing. -/
structure Delivery where
  signature : Option String
  event : Option String
  body : List UInt8
deriving DecidableEq, Repr

def appSecrets (lib : Libraries) (config : HookConfig) : Option GithubAppConfig → List String
  | none => []
  | some appConfig =>
      match decryptValue lib config appConfig.webhookSecret with
      | .ok secret => if Text.blank secret then [] else [secret]
      | .error _ => []

def globalSecrets (config : HookConfig) : List String :=
  if Text.blank config.webhookSecret then [] else [config.webhookSecret]

def collectUserSecrets (lib : Libraries) (config : HookConfig) :
    List Auth.User → List String → HookHandler (List String)
  | [], secrets => return secrets
  | user :: rest, secrets => do
      let found ← orInternal (SecretOp.getGithubApp user.id).call
      collectUserSecrets lib config rest (secrets ++ appSecrets lib config found)

def collectWebhookSecrets (lib : Libraries) : HookHandler (List String) := do
  let config : HookConfig ← liftM SecretOp.readConfig.call
  let users ← orInternal SecretOp.listUsers.call
  collectUserSecrets lib config users (globalSecrets config)

def anyMatches (lib : Libraries) (payload : List UInt8) (signature : String) :
    List String → Except String Bool
  | [] => .ok false
  | secret :: rest =>
      match verifyWebhookSignature lib payload signature secret with
      | .error message => .error message
      | .ok true => .ok true
      | .ok false => anyMatches lib payload signature rest

def checkSignature (lib : Libraries) (delivery : Delivery) (signature : String)
    (secrets : List String) : Except ApiError Unit :=
  if secrets.isEmpty then .error ⟨503, "github webhook secret is not configured"⟩
  else match anyMatches lib delivery.body signature secrets with
    | .error message => .error (badRequest message)
    | .ok false => .error ⟨401, "invalid signature"⟩
    | .ok true => .ok ()

def verifyDelivery (lib : Libraries) (delivery : Delivery) : HookHandler Unit :=
  match delivery.signature with
  | none => checked (.error (badRequest "missing signature"))
  | some signature => do
      let secrets ← collectWebhookSecrets lib
      checked (checkSignature lib delivery signature secrets)

structure WebhookResponse where
  message : String
  deploymentId : Option String
deriving DecidableEq, Repr

def readDelivery (lib : Libraries) (delivery : Delivery) :
    Except ApiError (WebhookResponse ⊕ PushEvent × String) :=
  let event := delivery.event.getD ""
  if event ≠ "push" then .ok (.inl ⟨"ignored event: " ++ event, none⟩)
  else match lib.parsePush delivery.body with
    | .error message => .error (badRequest ("invalid payload: " ++ message))
    | .ok push =>
        match extractBranch push.ref with
        | none => .error (badRequest "invalid ref")
        | some branch => .ok (.inr (push, branch))

def onBranch (repoUrl branch : String) (app : App) : Bool :=
  sameRepoUrl app.githubUrl repoUrl && app.branch = branch

/-- `get_app_by_github_url`. -/
def getAppByGithubUrl (repoUrl branch : String) : Fallible (Option App) := do
  let apps ← Store.listApps
  return apps.find? (onBranch repoUrl branch)

def resolveRemoteDeploymentSource (ownerId : Uuid) (app : App) : Handler DeploymentSource := do
  let token ← ExceptT.mk (external (.remoteGitToken ownerId app.githubUrl))
  return .remoteGit app.githubUrl token

def pushRequest (push : PushEvent) (app : App) (source : DeploymentSource) :
    DeploymentRequest where
  ownerId := app.ownerId
  app := app
  commitSha := push.after
  commitMessage := push.headCommit.map Commit.message
  branch := app.branch
  rolloutStrategy := app.rolloutStrategy
  rollbackFromDeploymentId := none
  sourceOverride := some source
  cleanupStaleDeployments := app.autoDeployCleanupStaleDeployments
  localBuildServiceId := none

def deployPush (push : PushEvent) (app : App) : Handler WebhookResponse := do
  let source ← resolveRemoteDeploymentSource app.ownerId app
  let deployment ← queueDeployment (pushRequest push app source)
  return ⟨"deployment triggered", some deployment.id.toString⟩

def answerPush (lib : Libraries) (push : PushEvent) (app : App) : Handler WebhookResponse :=
  if !app.autoDeployEnabled then return ⟨"auto-deploy is disabled", none⟩
  else match shouldTriggerForWatchPaths lib push app.autoDeployWatchPaths with
    | .error _ => throw internalError
    | .ok false => return ⟨"ignored push: no watched paths changed", none⟩
    | .ok true => deployPush push app

/-- The arms of the lookup. -/
def handlePush (lib : Libraries) (push : PushEvent) (branch : String) :
    Handler WebhookResponse := do
  match ← Containr.orInternal (getAppByGithubUrl push.repository.htmlUrl branch) with
  | none => return ⟨"no matching app found", none⟩
  | some app => answerPush lib push app

def githubWebhook (lib : Libraries) (delivery : Delivery) : HookHandler WebhookResponse := do
  verifyDelivery lib delivery
  match ← checked (readDelivery lib delivery) with
  | .inl ignored => return ignored
  | .inr (push, branch) => onWorld (handlePush lib push branch)

end Containr.Api.Webhooks
