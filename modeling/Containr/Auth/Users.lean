import Containr.Auth.OAuthStates
import Containr.Store

/-!
# The user table and `containr-api/src/handlers/auth.rs`

The handlers share the table `users` of `containr-common/src/db.rs` and nothing else
that matters here: hashes, tokens, GitHub, the clock, the states of the sign-in and the
deletion of a user's services answer from outside. Each statement of the store is one
step other requests can come between. The table is kept in the order of insertion; no
handler depends on the order of `list_users`.
-/

namespace Containr.Auth

open Containr.Effect

structure User where
  id : Uuid
  email : String
  passwordHash : Option String
  githubId : Option Int
  githubUsername : Option String
  githubAccessToken : Option String
  isAdmin : Bool
  createdAt : Time
  updatedAt : Time
deriving DecidableEq, Repr

structure GithubUser where
  id : Int
  login : String
  email : Option String
deriving DecidableEq, Repr

abbrev Users : Type := List User

def Users.byId (users : Users) (id : Uuid) : Option User := lookup (·.id) id users

def Users.byEmail (users : Users) (email : String) : Option User :=
  users.find? (·.email = email)

def Users.byGithubId (users : Users) (githubId : Int) : Option User :=
  users.find? (·.githubId = some githubId)

/-- The row that is written: `created_at` is not in the update list. -/
def Users.stored (users : Users) (user : User) : User :=
  { user with createdAt := ((users.byId user.id).map (·.createdAt)).getD user.createdAt }

/-- `INSERT .. ON CONFLICT(id) DO UPDATE`; the addresses are unique. -/
def Users.save (users : Users) (user : User) : Option Users :=
  if users.any fun other => other.id ≠ user.id && other.email = user.email then none
  else some (upsert (·.id) (users.stored user) users)

def Users.delete (users : Users) (id : Uuid) : Users := users.filter (·.id ≠ id)

inductive UserOp where
  | getUser (id : Uuid)
  | listUsers
  | getUserByEmail (email : String)
  | getUserByGithubId (githubId : Int)
  | saveUser (user : User)
  | deleteUser (id : Uuid)
  | takeOauthState (state : String)
  | timestamp
  | utcNow
  | newUuid
  | hashPassword (password : String)
  | verifyPassword (password hash : String)
  | exchangeCode (code : String)
  | githubUser (accessToken : String)
  | encryptValue (value : String)
  | createToken (userId : Uuid) (email : String)
  | serviceInventory (ownerId : Uuid)
  | deleteService (ownerId serviceId : Uuid)
deriving DecidableEq, Repr

def UserOp.Answer : UserOp → Type
  | .getUser _ | .getUserByEmail _ | .getUserByGithubId _ => Except String (Option User)
  | .listUsers => Except String (List User)
  | .saveUser _ => Except String Unit
  | .deleteUser _ => Except String Bool
  | .takeOauthState _ => Option (Int × OAuthPurpose)
  | .timestamp => Int
  | .utcNow => Time
  | .newUuid => Uuid
  | .hashPassword _ | .exchangeCode _ | .encryptValue _ | .createToken _ _ => Except String String
  | .verifyPassword _ _ => Except String Bool
  | .githubUser _ => Except String GithubUser
  | .serviceInventory _ => Except String (List Uuid)
  | .deleteService _ _ => Except ApiError Unit

abbrev UserEffects : Interface := ⟨UserOp, UserOp.Answer⟩

/-- A fault of the store, or the answer from outside. -/
def UserOp.Choice : UserOp → Type
  | .getUser _ | .getUserByEmail _ | .getUserByGithubId _ | .listUsers | .saveUser _
  | .deleteUser _ => Option String
  | op => op.Answer

def faulty {Reply : Type} (fault : Option String) (reply : Reply) : Except String Reply :=
  match fault with
  | some message => .error message
  | none => .ok reply

def UserOp.exec : (op : UserOp) → op.Choice → Users → op.Answer × Users
  | .getUser id, fault, users => (faulty fault (users.byId id), users)
  | .getUserByEmail email, fault, users => (faulty fault (users.byEmail email), users)
  | .getUserByGithubId githubId, fault, users => (faulty fault (users.byGithubId githubId), users)
  | .listUsers, fault, users => (faulty fault users, users)
  | .saveUser user, fault, users =>
      match fault with
      | some message => (.error message, users)
      | none =>
          match users.save user with
          | some after => (.ok (), after)
          | none => (.error "UNIQUE constraint failed: users.email", users)
  | .deleteUser id, fault, users =>
      match fault with
      | some message => (.error message, users)
      | none => (.ok (users.any (·.id = id)), users.delete id)
  | .takeOauthState _, reply, users => (reply, users)
  | .timestamp, reply, users => (reply, users)
  | .utcNow, reply, users => (reply, users)
  | .newUuid, reply, users => (reply, users)
  | .hashPassword _, reply, users => (reply, users)
  | .verifyPassword _ _, reply, users => (reply, users)
  | .exchangeCode _, reply, users => (reply, users)
  | .githubUser _, reply, users => (reply, users)
  | .encryptValue _, reply, users => (reply, users)
  | .createToken _ _, reply, users => (reply, users)
  | .serviceInventory _, reply, users => (reply, users)
  | .deleteService _ _, reply, users => (reply, users)

def userSystem : Machine UserEffects Users := ⟨UserOp.Choice, UserOp.exec, fun _ _ _ => True⟩

structure UserResponse where
  id : Uuid
  email : String
  githubUsername : Option String
  isAdmin : Bool
  hasPassword : Bool
deriving DecidableEq, Repr

structure AuthResponse where
  token : String
  user : UserResponse
  linked : Bool
deriving DecidableEq, Repr

inductive Response where
  | auth (response : AuthResponse)
  | user (response : UserResponse)
  | noContent
deriving DecidableEq, Repr

/-- The `authorization` header, when it is text. -/
abbrev Authorization : Type := Option String

inductive Request where
  | register (email password : String)
  | githubCallback (authorization : Authorization) (code state : String)
  | changePassword (authorization : Authorization) (currentPassword : Option String)
      (newPassword : String)
  | githubUnlink (authorization : Authorization)
  | deleteUser (authorization : Authorization) (id : Uuid)
deriving DecidableEq, Repr

/-- What `validate_token` reads from a token. -/
abbrev Tokens : Type := String → Except String Uuid

abbrev UserHandler (Value : Type) : Type := ExceptT ApiError (Program UserEffects) Value

def UserOp.call (op : UserOp) : Program UserEffects op.Answer := @Program.perform UserEffects op

def badRequest (message : String) : ApiError := ⟨400, message⟩

/-- `map_err(internal_error)`. -/
def orInternal {Value : Type} (program : Program UserEffects (Except String Value)) :
    UserHandler Value :=
  ExceptT.mk (program.bind fun result => .pure (match result with
    | .ok value => .ok value
    | .error _ => .error internalError))

def orError {Value : Type} (error : String → ApiError)
    (program : Program UserEffects (Except String Value)) : UserHandler Value :=
  ExceptT.mk (program.bind fun result => .pure (match result with
    | .ok value => .ok value
    | .error message => .error (error message)))

def refuse {Value : Type} (error : ApiError) : UserHandler Value := ExceptT.mk (.pure (.error error))

/-- `if !condition { return Err(error) }`. -/
def require (condition : Bool) (error : ApiError) : UserHandler Unit :=
  if condition then pure () else refuse error

def userResponse (user : User) : UserResponse :=
  ⟨user.id, user.email, user.githubUsername, user.isAdmin, user.passwordHash.isSome⟩

def getUserId (tokens : Tokens) (authorization : Authorization) : Except ApiError Uuid :=
  match authorization with
  | none => .error ⟨401, "missing authorization header"⟩
  | some header =>
      match Text.stripFront header "Bearer " with
      | none => .error ⟨401, "invalid authorization header"⟩
      | some token =>
          match tokens token with
          | .ok id => .ok id
          | .error message => .error ⟨401, message⟩

def requireAuthenticatedUser (tokens : Tokens) (authorization : Authorization) :
    UserHandler User := do
  let userId ← ExceptT.mk (.pure (getUserId tokens authorization))
  match ← orInternal (UserOp.getUser userId).call with
  | some user => return user
  | none => refuse ⟨401, "user not found"⟩

def requireAdminUser (tokens : Tokens) (authorization : Authorization) : UserHandler User := do
  let user ← requireAuthenticatedUser tokens authorization
  require user.isAdmin ⟨403, "admin access required"⟩
  return user

/-- `User::new_with_password`. -/
def newWithPassword (email passwordHash : String) : UserHandler User := do
  let now ← UserOp.utcNow.call
  let id ← UserOp.newUuid.call
  return ⟨id, email, some passwordHash, none, none, none, false, now, now⟩

/-- `User::new_with_github`. -/
def newWithGithub (email : String) (githubId : Int) (githubUsername : String) :
    UserHandler User := do
  let now ← UserOp.utcNow.call
  let id ← UserOp.newUuid.call
  return ⟨id, email, none, some githubId, some githubUsername, none, false, now, now⟩

def saveUser (user : User) : UserHandler Unit := orInternal (UserOp.saveUser user).call

def authResponse (user : User) (linked : Bool) : UserHandler Response := do
  let token ← orInternal (UserOp.createToken user.id user.email).call
  return .auth ⟨token, userResponse user, linked⟩

def shortPassword : ApiError := badRequest "password must be at least 8 characters"

def register (email password : String) : UserHandler Response := do
  let users ← orInternal UserOp.listUsers.call
  require users.isEmpty
    ⟨403, "public registration is closed; ask the admin to create your account"⟩
  let existing ← orInternal (UserOp.getUserByEmail email).call
  require existing.isNone ⟨409, "email already registered"⟩
  require (8 ≤ password.utf8ByteSize) shortPassword
  let passwordHash ← orInternal (UserOp.hashPassword password).call
  let user ← newWithPassword email passwordHash
  let user := { user with isAdmin := true }
  saveUser user
  authResponse user false

def checkCurrentPassword (user : User) (currentPassword : Option String) : UserHandler Unit :=
  match user.passwordHash with
  | none => pure ()
  | some passwordHash => do
      let valid ← orInternal
        (UserOp.verifyPassword (currentPassword.getD "") passwordHash).call
      require valid (badRequest "current password is incorrect")

def changePassword (tokens : Tokens) (authorization : Authorization)
    (currentPassword : Option String) (newPassword : String) : UserHandler Response := do
  let user ← requireAuthenticatedUser tokens authorization
  require (8 ≤ newPassword.utf8ByteSize) shortPassword
  checkCurrentPassword user currentPassword
  let passwordHash ← orInternal (UserOp.hashPassword newPassword).call
  let now ← UserOp.utcNow.call
  saveUser { user with passwordHash := some passwordHash, updatedAt := now }
  return .noContent

def unlinkGithub (user : User) : Except ApiError User :=
  if user.githubId.isNone && user.githubAccessToken.isNone then
    .error (badRequest "no GitHub account is linked")
  else if user.passwordHash.isNone then
    .error ⟨409, "set a password before unlinking GitHub, or you won't be able to sign in"⟩
  else .ok { user with githubId := none, githubUsername := none, githubAccessToken := none }

def githubUnlink (tokens : Tokens) (authorization : Authorization) : UserHandler Response := do
  let user ← requireAuthenticatedUser tokens authorization
  let user ← ExceptT.mk (.pure (unlinkGithub user))
  let now ← UserOp.utcNow.call
  let user := { user with updatedAt := now }
  saveUser user
  return .user (userResponse user)

def linkGithub (user : User) (currentOwner : Option User) (github : GithubUser)
    (encryptedToken : String) : Except ApiError User :=
  if currentOwner.any fun owner => owner.id ≠ user.id then
    .error ⟨409, "this GitHub account is already linked to another containr account"⟩
  else .ok { user with
    githubId := some github.id
    githubUsername := some github.login
    githubAccessToken := some encryptedToken }

def timestamp : Program UserEffects Int := UserOp.timestamp.call

def oauthPurpose (state : String) : UserHandler OAuthPurpose := do
  let now ← timestamp
  match ← liftM (UserOp.takeOauthState state).call with
  | some (expiresAt, purpose) =>
      require (decide (now ≤ expiresAt)) (badRequest "invalid oauth state")
      return purpose
  | none => refuse (badRequest "invalid oauth state")

def linkingUser (tokens : Tokens) (authorization : Authorization) :
    OAuthPurpose → UserHandler (Option User)
  | .login => pure none
  | .link userId => do
      let user ← requireAuthenticatedUser tokens authorization
      require (user.id = userId) ⟨403, "this GitHub link was started by another account"⟩
      return some user

def githubIdentity (code : String) : UserHandler (GithubUser × String) := do
  let accessToken ← orError badRequest (UserOp.exchangeCode code).call
  let github ← orError badRequest (UserOp.githubUser accessToken).call
  let stored ← orError (fun message => ⟨500, "token encryption failed: " ++ message⟩)
    (UserOp.encryptValue accessToken).call
  return (github, stored)

def hasAdminUser : Program UserEffects (Except String Bool) :=
  UserOp.listUsers.call.bind fun (listed : Except String (List User)) =>
    .pure (listed.map fun users => users.any (·.isAdmin))

def linkUser (user : User) (currentOwner : Option User) (github : GithubUser) (stored : String) :
    UserHandler User := do
  let user ← ExceptT.mk (.pure (linkGithub user currentOwner github stored))
  let now ← UserOp.utcNow.call
  let user := { user with updatedAt := now }
  saveUser user
  return user

def loginUser (user : User) (github : GithubUser) (stored : String) : UserHandler User := do
  let isAdmin ← if user.isAdmin then pure true else do
    let hasAdmin ← orInternal hasAdminUser
    pure !hasAdmin
  let user := { user with
    isAdmin := isAdmin
    githubAccessToken := some stored
    githubUsername := some github.login }
  saveUser user
  return user

def signUpUser (github : GithubUser) (stored : String) : UserHandler User := do
  let users ← orInternal UserOp.listUsers.call
  require users.isEmpty
    ⟨403, "github signups are closed; ask the admin to provision your account"⟩
  let user ← newWithGithub (github.email.getD (github.login ++ "@github.local")) github.id
    github.login
  let user := { user with isAdmin := true, githubAccessToken := some stored }
  saveUser user
  return user

def githubCallback (tokens : Tokens) (authorization : Authorization) (code state : String) :
    UserHandler Response := do
  let purpose ← oauthPurpose state
  let linking ← linkingUser tokens authorization purpose
  let (github, stored) ← githubIdentity code
  let currentOwner ← orInternal (UserOp.getUserByGithubId github.id).call
  let user ← match linking, currentOwner with
    | some user, currentOwner => linkUser user currentOwner github stored
    | none, some user => loginUser user github stored
    | none, none => signUpUser github stored
  authResponse user linking.isSome

def deleteServices (ownerId : Uuid) (inventory : List Uuid) : Program UserEffects Unit :=
  Program.forAll (fun serviceId => (UserOp.deleteService ownerId serviceId).call.bind fun _ =>
    .pure ()) inventory

def deleteUser (tokens : Tokens) (authorization : Authorization) (id : Uuid) :
    UserHandler Response := do
  let admin ← requireAdminUser tokens authorization
  require (admin.id ≠ id) (badRequest "you cannot delete your own account")
  let user ← orInternal (UserOp.getUser id).call
  require user.isSome ⟨404, "user not found"⟩
  let inventory ← orInternal (UserOp.serviceInventory id).call
  deleteServices id inventory
  let _ ← orInternal (UserOp.deleteUser id).call
  return .noContent

def handle (tokens : Tokens) : Request → Program UserEffects (Except ApiError Response)
  | .register email password => (register email password).run
  | .githubCallback authorization code state =>
      (githubCallback tokens authorization code state).run
  | .changePassword authorization currentPassword newPassword =>
      (changePassword tokens authorization currentPassword newPassword).run
  | .githubUnlink authorization => (githubUnlink tokens authorization).run
  | .deleteUser authorization id => (deleteUser tokens authorization id).run

end Containr.Auth
