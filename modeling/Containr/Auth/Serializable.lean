import Containr.Auth.Bootstrap

/-!
# Requests on the user table in some order

Every request on a user reads the table, asks outside and writes a whole row once. Where
each write meets a table in which the rows it rests on could still be read, the table is
the one the successful requests leave one after the other. Such a save replaces a row that
is there, keeps the password unless it is `change_password`, and takes a GitHub account
nobody else has.
-/

namespace Containr.Auth

open Containr.Effect
open Containr.Effect.Program

def userStore : SharedStore UserEffects where
  reads
    | .getUser _ | .listUsers | .getUserByEmail _ | .getUserByGithubId _ => True
    | _ => False
  writes
    | .saveUser _ | .deleteUser _ => True
    | _ => False
  applied
    | .saveUser _, answer => Succeeds answer
    | .deleteUser _, answer => Succeeds answer
    | _, _ => True

def TokenCreated : (op : UserOp) → op.Answer → Prop
  | .createToken _ _, answer => Succeeds answer
  | _, _ => True

theorem user_store_serves : userStore.Serves userSystem.can where
  still := by
    intro op before answer after unchanged possible
    cases op with
    | saveUser user =>
        rcases save_user_step possible with ⟨accepted, -⟩ | ⟨same, -⟩
        · subst accepted
          exact absurd ⟨trivial, trivial⟩ unchanged
        · exact same
    | deleteUser id =>
        obtain ⟨fault, -, result⟩ := possible
        cases fault with
        | some message => exact (congrArg Prod.snd result).symm
        | none =>
            cases result
            exact absurd ⟨trivial, trivial⟩ unchanged
    | _ => exact users_kept possible (fun _ same => by cases same) fun _ same => by cases same
  outside := by
    rintro op before answer after ⟨unread, unwritten⟩ ⟨reply, -, result⟩ state
    have answered := congrArg Prod.fst result
    cases op with
    | getUser _ | listUsers | getUserByEmail _ | getUserByGithubId _ => exact absurd trivial unread
    | saveUser _ | deleteUser _ => exact absurd trivial unwritten
    | _ => exact ⟨reply, trivial, congrArg (·, state) answered⟩

theorem harmless_unwritten {op : UserOp} (harmless : Harmless op) : ¬userStore.writes op := by
  cases op with
  | saveUser user => exact harmless.elim
  | deleteUser id => exact harmless.elim
  | _ => exact not_false

section WritesOnce

variable {Value Other : Type}

abbrev WritesUsersOnce (program : UserHandler Value) : Prop :=
  userStore.WritesOnce TokenCreated Succeeds program.run

variable {rest : Other → UserHandler Value} {first : UserHandler Other}

theorem writes_users_after (harmless : first.run.Calls Harmless)
    (once : ∀ value, WritesUsersOnce (rest value)) : WritesUsersOnce (first >>= rest) :=
  SharedStore.writes_once_run_bind (harmless.mono fun _ => harmless_unwritten) once

theorem writes_users_after_lift {first : Program UserEffects Other}
    (harmless : first.Calls Harmless) (once : ∀ value, WritesUsersOnce (rest value)) :
    WritesUsersOnce ((liftM first : UserHandler Other) >>= rest) :=
  SharedStore.writes_once_run_lift_bind (harmless.mono fun _ => harmless_unwritten) once

theorem writes_users_check {outcome : Except ApiError Other}
    (once : ∀ value, WritesUsersOnce (rest value)) :
    WritesUsersOnce (ExceptT.mk (.pure outcome) >>= rest) :=
  writes_users_after (calls_pure _) once

variable (tokens : Tokens) (authorization : Authorization) (user : User)

theorem save_user_once : WritesUsersOnce (saveUser user) := by
  unfold WritesUsersOnce saveUser orInternal UserOp.call perform
  apply (SharedStore.writes_once_call _ _).mpr
  intro answer
  cases answer with
  | ok value =>
      have succeeds : Succeeds (Except.ok value : Except ApiError Unit) := trivial
      refine ⟨fun _ => under_pure.mpr succeeds, fun still => ?_⟩
      exact absurd ⟨trivial, trivial⟩ still
  | error message =>
      exact ⟨fun changes => changes.2.elim, fun _ => (SharedStore.writes_once_pure _).mpr not_false⟩

theorem delete_row_once (id : Uuid) : WritesUsersOnce (orInternal (UserOp.deleteUser id).call) := by
  unfold WritesUsersOnce orInternal UserOp.call perform
  apply (SharedStore.writes_once_call _ _).mpr
  intro answer
  cases answer with
  | ok found =>
      have succeeds : Succeeds (Except.ok found : Except ApiError Bool) := trivial
      refine ⟨fun _ => under_pure.mpr succeeds, fun still => ?_⟩
      exact absurd ⟨trivial, trivial⟩ still
  | error message =>
      exact ⟨fun changes => changes.2.elim, fun _ => (SharedStore.writes_once_pure _).mpr not_false⟩

theorem writes_users_return {result : Other → Value} (once : WritesUsersOnce first) :
    WritesUsersOnce (first >>= fun value => (pure (result value) : UserHandler Value)) :=
  once.run_then fun value => by
    have succeeds : Succeeds (Except.ok (result value) : Except ApiError Value) := trivial
    exact under_pure.mpr succeeds

theorem auth_response_succeeds (linked : Bool) :
    (authResponse user linked).run.Under TokenCreated userStore.Outside Succeeds := by
  unfold authResponse orInternal UserOp.call perform
  apply under_run_bind.mpr
  apply under_bind.mpr
  apply under_call.mpr
  refine ⟨⟨not_false, not_false⟩, fun answer created => ?_⟩
  apply under_pure.mpr
  apply under_pure.mpr
  cases answer with
  | ok token => exact under_pure.mpr trivial
  | error message => exact created.elim

theorem authenticated_harmless :
    (requireAuthenticatedUser tokens authorization).run.Calls Harmless := by
  apply check_calls
  intro id _
  apply Calls.run_bind (or_internal_calls (user_op_calls trivial))
  intro found
  cases found with
  | some user => exact calls_run_pure _
  | none => exact refuse_calls _

theorem admin_harmless : (requireAdminUser tokens authorization).run.Calls Harmless := by
  apply Calls.run_bind (authenticated_harmless tokens authorization)
  intro user
  exact (require_calls _ _).run_return

theorem current_password_harmless (currentPassword : Option String) :
    (checkCurrentPassword user currentPassword).run.Calls Harmless := by
  unfold checkCurrentPassword
  cases user.passwordHash with
  | none => exact calls_run_pure _
  | some passwordHash =>
      apply Calls.run_bind (or_internal_calls (user_op_calls trivial))
      intro valid
      exact require_calls _ _

theorem linking_harmless (purpose : OAuthPurpose) :
    (linkingUser tokens authorization purpose).run.Calls Harmless := by
  cases purpose with
  | login => exact calls_run_pure _
  | link userId =>
      apply Calls.run_bind (authenticated_harmless tokens authorization)
      intro user
      exact (require_calls _ _).run_return

theorem delete_services_harmless (ownerId : Uuid) (inventory : List Uuid) :
    (deleteServices ownerId inventory).Calls Harmless :=
  calls_for_all inventory fun _ _ => (user_op_calls trivial).bind fun _ => calls_pure _

theorem new_account_harmless (email passwordHash : String) :
    (newWithPassword email passwordHash).run.Calls Harmless := by
  apply Calls.run_lift_bind (user_op_calls trivial)
  intro now
  exact Calls.run_lift_bind (user_op_calls trivial) fun id => calls_run_pure _

theorem new_github_harmless (email : String) (githubId : Int) (githubUsername : String) :
    (newWithGithub email githubId githubUsername).run.Calls Harmless := by
  apply Calls.run_lift_bind (user_op_calls trivial)
  intro now
  exact Calls.run_lift_bind (user_op_calls trivial) fun id => calls_run_pure _

theorem register_once (email password : String) : WritesUsersOnce (register email password) := by
  apply writes_users_after (or_internal_calls (user_op_calls trivial))
  intro users
  apply writes_users_after (require_calls _ _)
  intro _
  apply writes_users_after (or_internal_calls (user_op_calls trivial))
  intro existing
  apply writes_users_after (require_calls _ _)
  intro _
  apply writes_users_after (require_calls _ _)
  intro _
  apply writes_users_after (or_internal_calls (user_op_calls trivial))
  intro passwordHash
  apply writes_users_after (new_account_harmless _ _)
  intro user
  dsimp only
  apply (save_user_once _).run_then
  intro _
  exact auth_response_succeeds _ _

theorem change_password_once (currentPassword : Option String) (newPassword : String) :
    WritesUsersOnce (changePassword tokens authorization currentPassword newPassword) := by
  apply writes_users_after (authenticated_harmless tokens authorization)
  intro user
  apply writes_users_after (require_calls _ _)
  intro _
  apply writes_users_after (current_password_harmless user currentPassword)
  intro _
  apply writes_users_after (or_internal_calls (user_op_calls trivial))
  intro passwordHash
  refine writes_users_after_lift (user_op_calls trivial) fun now => ?_
  exact writes_users_return (save_user_once _)

theorem github_unlink_once : WritesUsersOnce (githubUnlink tokens authorization) := by
  apply writes_users_after (authenticated_harmless tokens authorization)
  intro user
  apply writes_users_check
  intro unlinked
  refine writes_users_after_lift (user_op_calls trivial) fun now => ?_
  exact writes_users_return (save_user_once _)

theorem link_user_once (currentOwner : Option User) (github : GithubUser) (stored : String) :
    WritesUsersOnce (linkUser user currentOwner github stored) := by
  apply writes_users_check
  intro linked
  refine writes_users_after_lift (user_op_calls trivial) fun now => ?_
  exact writes_users_return (save_user_once _)

theorem login_user_once (github : GithubUser) (stored : String) :
    WritesUsersOnce (loginUser user github stored) := by
  unfold loginUser
  have saved : ∀ isAdmin : Bool, WritesUsersOnce (do
      let user := { user with
        isAdmin := isAdmin
        githubAccessToken := some stored
        githubUsername := some github.login }
      saveUser user
      return user) := fun isAdmin => writes_users_return (save_user_once _)
  by_cases isAdmin : user.isAdmin = true
  · rw [if_pos isAdmin]
    exact writes_users_after (calls_run_pure _) saved
  · rw [if_neg isAdmin]
    have listed : hasAdminUser.Calls Harmless :=
      (user_op_calls trivial).bind fun _ => calls_pure _
    apply writes_users_after (or_internal_calls listed)
    intro hasAdmin
    exact writes_users_after (calls_run_pure _) saved

theorem sign_up_user_once (github : GithubUser) (stored : String) :
    WritesUsersOnce (signUpUser github stored) := by
  apply writes_users_after (or_internal_calls (user_op_calls trivial))
  intro users
  apply writes_users_after (require_calls _ _)
  intro _
  apply writes_users_after (new_github_harmless _ _ _)
  intro user
  exact writes_users_return (save_user_once _)

theorem github_callback_once (code state : String) :
    WritesUsersOnce (githubCallback tokens authorization code state) := by
  apply writes_users_after (oauth_purpose_harmless state)
  intro purpose
  apply writes_users_after (linking_harmless tokens authorization purpose)
  intro linking
  apply writes_users_after (github_identity_harmless code)
  rintro ⟨github, stored⟩
  apply writes_users_after (or_internal_calls (user_op_calls trivial))
  intro currentOwner
  cases linking with
  | some user =>
      dsimp only
      apply (link_user_once user currentOwner github stored).run_then
      intro linked
      exact auth_response_succeeds _ _
  | none =>
      cases currentOwner with
      | some user =>
          dsimp only
          apply (login_user_once user github stored).run_then
          intro _
          exact auth_response_succeeds _ _
      | none =>
          dsimp only
          apply (sign_up_user_once github stored).run_then
          intro _
          exact auth_response_succeeds _ _

theorem delete_user_once (id : Uuid) : WritesUsersOnce (deleteUser tokens authorization id) := by
  apply writes_users_after (admin_harmless tokens authorization)
  intro admin
  apply writes_users_after (require_calls _ _)
  intro _
  apply writes_users_after (or_internal_calls (user_op_calls trivial))
  intro user
  apply writes_users_after (require_calls _ _)
  intro _
  apply writes_users_after (or_internal_calls (user_op_calls trivial))
  intro inventory
  apply writes_users_after_lift (delete_services_harmless id inventory)
  intro _
  exact writes_users_return (delete_row_once id)

theorem handle_once (request : Request) :
    userStore.WritesOnce TokenCreated Succeeds (handle tokens request) := by
  cases request with
  | register email password => exact register_once email password
  | githubCallback authorization code state =>
      exact github_callback_once tokens authorization code state
  | changePassword authorization currentPassword newPassword =>
      exact change_password_once tokens authorization currentPassword newPassword
  | githubUnlink authorization => exact github_unlink_once tokens authorization
  | deleteUser authorization id => exact delete_user_once tokens authorization id

end WritesOnce

/-- `change_password` sets the password of a user who is there; nothing else does. -/
def SetsPassword : Request → Prop
  | .changePassword _ _ _ => True
  | _ => False

/-- What a save may make of a row of the table. -/
structure Replaces (request : Request) (users : Users) (row user : User) : Prop where
  id : user.id = row.id
  password : SetsPassword request ∨ user.passwordHash = row.passwordHash
  github : ∀ githubId, user.githubId = some githubId → row.githubId = some githubId ∨
    ∀ owner, users.byGithubId githubId = some owner → owner.id = row.id

def Rests (request : Request) (users : Users) : UserOp → Prop
  | .saveUser user => users = [] ∨ ∃ row ∈ users, Replaces request users row user
  | .deleteUser id => ∃ row ∈ users, row.id ≠ id
  | _ => True

section Alone

variable {Value Other : Type}

/-- What the handler writes rests on the table. -/
abbrev RestsOn (request : Request) (users : Users) (handler : UserHandler Value) : Prop :=
  handler.run.Always userSystem.can (Rests request) (fun _ _ => True) users

/-- The handler leaves the table alone, and what it returns is known. -/
abbrev Answers (request : Request) (users : Users) (known : Value → Prop)
    (handler : UserHandler Value) : Prop :=
  handler.run.Always userSystem.can (Rests request)
    (fun result after => after = users ∧ OnOk known result) users

variable {request : Request} {users : Users}

theorem rests_harmless_op {op : UserOp} (harmless : Harmless op) : Rests request users op := by
  cases op with
  | saveUser user => exact harmless.elim
  | deleteUser id => exact harmless.elim
  | _ => trivial

/-- What is asked before the write leaves the table as it is. -/
theorem harmless_rests {program : Program UserEffects Value} (calls : program.Calls Harmless) :
    program.Always userSystem.can (Rests request) (fun _ after => after = users) users := by
  have kept : program.Always userSystem.can (fun _ op => Harmless op)
      (fun _ after => after = users) users := by
    apply calls.always
    · intro op before answer after harmless same possible
      have noSave : ∀ user, op ≠ .saveUser user := by
        rintro user rfl
        exact harmless
      have noDelete : ∀ id, op ≠ .deleteUser id := by
        rintro id rfl
        exact harmless
      rw [users_kept possible noSave noDelete]
      exact same
    · rfl
  exact kept.restrict (fun _ _ _ _ possible => possible) fun _ _ harmless =>
    rests_harmless_op harmless

variable {first : UserHandler Other} {rest : Other → UserHandler Value}

/-- The handler asks, knows something of the table and goes on. -/
theorem rests_bind {known : Other → Prop} (asked : Answers request users known first)
    (next : ∀ value, known value → RestsOn request users (rest value)) :
    RestsOn request users (first >>= rest) := by
  apply asked.run_bind
  intro result after known
  cases result with
  | error error => trivial
  | ok value =>
      have same := known.1
      subst same
      exact next value known.2

theorem rests_harmless (calls : first.run.Calls Harmless)
    (next : ∀ value, RestsOn request users (rest value)) :
    RestsOn request users (first >>= rest) := by
  apply (harmless_rests calls).run_bind
  intro result after same
  cases result with
  | error error => trivial
  | ok value =>
      subst same
      exact next value

theorem rests_harmless_lift {first : Program UserEffects Other} (calls : first.Calls Harmless)
    (next : ∀ value, RestsOn request users (rest value)) :
    RestsOn request users ((liftM first : UserHandler Other) >>= rest) := by
  apply (harmless_rests calls).run_lift_bind
  intro value after same
  subst same
  exact next value

theorem rests_check {outcome : Except ApiError Other} (next : ∀ value, outcome = .ok value →
      RestsOn request users (rest value)) :
    RestsOn request users (ExceptT.mk (.pure outcome) >>= rest) := by
  cases outcome with
  | ok value => exact next value rfl
  | error error => exact always_pure.mpr trivial

/-- Once the write is made nothing is written any more. -/
theorem rests_then (written : RestsOn request users first)
    (calls : ∀ value, (rest value).run.Calls Harmless) :
    RestsOn request users (first >>= rest) := by
  apply written.run_bind
  intro result after _
  cases result with
  | error error => trivial
  | ok value => exact (harmless_rests (calls value)).mono fun _ _ _ => trivial

variable {user : User}

theorem save_rests (rests : Rests request users (.saveUser user)) :
    RestsOn request users (saveUser user) := by
  apply or_internal_always.mpr
  apply user_op_always.mpr
  refine ⟨rests, fun answer after _ => ?_⟩
  cases answer with
  | ok value => trivial
  | error message => trivial

theorem get_user_answers (id : Uuid) :
    Answers request users (fun found => found = users.byId id)
      (orInternal (UserOp.getUser id).call) := by
  apply or_internal_always.mpr
  apply user_op_always.mpr
  refine ⟨trivial, ?_⟩
  rintro answer after ⟨fault, -, result⟩
  cases result
  cases fault with
  | some message => exact ⟨rfl, trivial⟩
  | none => exact ⟨rfl, rfl⟩

theorem get_github_user_answers (githubId : Int) :
    Answers request users (fun found => found = users.byGithubId githubId)
      (orInternal (UserOp.getUserByGithubId githubId).call) := by
  apply or_internal_always.mpr
  apply user_op_always.mpr
  refine ⟨trivial, ?_⟩
  rintro answer after ⟨fault, -, result⟩
  cases result
  cases fault with
  | some message => exact ⟨rfl, trivial⟩
  | none => exact ⟨rfl, rfl⟩

theorem list_users_answers :
    Answers request users (fun found => found = users) (orInternal UserOp.listUsers.call) := by
  apply or_internal_always.mpr
  apply user_op_always.mpr
  refine ⟨trivial, ?_⟩
  rintro answer after ⟨fault, -, result⟩
  cases result
  cases fault with
  | some message => exact ⟨rfl, trivial⟩
  | none => exact ⟨rfl, rfl⟩

theorem require_answers (condition : Bool) (error : ApiError) :
    Answers request users (fun _ => condition = true) (require condition error) := by
  unfold require
  by_cases holds : condition = true
  · rw [if_pos holds]
    exact always_pure.mpr ⟨rfl, holds⟩
  · rw [if_neg holds]
    exact always_pure.mpr ⟨rfl, trivial⟩

variable (tokens : Tokens) (authorization : Authorization)

/-- Whoever is asking is in the table. -/
theorem authenticated_answers :
    Answers request users (· ∈ users) (requireAuthenticatedUser tokens authorization) := by
  unfold requireAuthenticatedUser
  apply always_run_bind.mpr
  apply always_pure.mpr
  cases getUserId tokens authorization with
  | error error => exact ⟨rfl, trivial⟩
  | ok id =>
      apply (get_user_answers id).run_bind
      intro result after known
      cases result with
      | error error => exact ⟨known.1, trivial⟩
      | ok found =>
          have stored : found = users.byId id := known.2
          cases found with
          | none => exact always_pure.mpr ⟨known.1, trivial⟩
          | some user =>
              apply always_run_pure.mpr
              exact ⟨known.1, (lookup_eq_some_mem stored.symm).1⟩

theorem admin_answers :
    Answers request users (· ∈ users) (requireAdminUser tokens authorization) := by
  apply (authenticated_answers tokens authorization).run_bind
  intro result after known
  cases result with
  | error error => exact ⟨known.1, trivial⟩
  | ok user =>
      apply require_always
      · intro _
        exact always_run_pure.mpr known
      · exact ⟨known.1, trivial⟩

theorem linking_answers (purpose : OAuthPurpose) :
    Answers request users (fun linking => ∀ user, linking = some user → user ∈ users)
      (linkingUser tokens authorization purpose) := by
  cases purpose with
  | login =>
      apply always_run_pure.mpr
      refine ⟨rfl, fun user same => ?_⟩
      cases same
  | link userId =>
      apply (authenticated_answers tokens authorization).run_bind
      intro result after known
      cases result with
      | error error => exact ⟨known.1, trivial⟩
      | ok user =>
          apply require_always
          · intro _
            apply always_run_pure.mpr
            refine ⟨known.1, fun other same => ?_⟩
            cases same
            exact known.2
          · exact ⟨known.1, trivial⟩

theorem register_rests (email password : String) :
    RestsOn request users (register email password) := by
  apply rests_bind list_users_answers
  intro found same
  apply rests_bind (require_answers _ _)
  intro _ nobody
  have empty : users = [] := by
    rw [← same]
    exact List.isEmpty_iff.mp nobody
  apply rests_harmless (or_internal_calls (user_op_calls trivial))
  intro existing
  apply rests_harmless (require_calls _ _)
  intro _
  apply rests_harmless (require_calls _ _)
  intro _
  apply rests_harmless (or_internal_calls (user_op_calls trivial))
  intro passwordHash
  apply rests_harmless (new_account_harmless _ _)
  intro user
  dsimp only
  apply rests_then (save_rests (Or.inl empty))
  intro _
  exact auth_response_calls _ _ trivial

theorem change_password_rests (currentPassword : Option String) (newPassword : String)
    (sets : SetsPassword request) :
    RestsOn request users (changePassword tokens authorization currentPassword newPassword) := by
  apply rests_bind (authenticated_answers tokens authorization)
  intro user member
  apply rests_harmless (require_calls _ _)
  intro _
  apply rests_harmless (current_password_harmless user currentPassword)
  intro _
  apply rests_harmless (or_internal_calls (user_op_calls trivial))
  intro passwordHash
  refine rests_harmless_lift (user_op_calls trivial) fun now => ?_
  have replaces : Replaces request users user
      { user with passwordHash := some passwordHash, updatedAt := now } :=
    ⟨rfl, Or.inl sets, fun githubId same => Or.inl same⟩
  apply rests_then (save_rests (Or.inr ⟨user, member, replaces⟩))
  intro _
  exact calls_run_pure _

theorem github_unlink_rests : RestsOn request users (githubUnlink tokens authorization) := by
  apply rests_bind (authenticated_answers tokens authorization)
  intro user member
  apply rests_check
  intro unlinked accepted
  refine rests_harmless_lift (user_op_calls trivial) fun now => ?_
  have replaces : Replaces request users user { unlinked with updatedAt := now } := by
    unfold unlinkGithub at accepted
    split_ifs at accepted
    cases accepted
    exact ⟨rfl, Or.inr rfl, fun githubId same => by cases same⟩
  dsimp only
  apply rests_then (save_rests (Or.inr ⟨user, member, replaces⟩))
  intro _
  exact calls_run_pure _

theorem link_user_rests (member : user ∈ users) (github : GithubUser) (stored : String) :
    RestsOn request users (linkUser user (users.byGithubId github.id) github stored) := by
  apply rests_check
  intro linked accepted
  refine rests_harmless_lift (user_op_calls trivial) fun now => ?_
  have replaces : Replaces request users user { linked with updatedAt := now } := by
    unfold linkGithub at accepted
    split_ifs at accepted with taken
    cases accepted
    refine ⟨rfl, Or.inr rfl, fun githubId same => Or.inr fun owner found => ?_⟩
    cases same
    rw [found] at taken
    simpa using taken
  dsimp only
  apply rests_then (save_rests (Or.inr ⟨user, member, replaces⟩))
  intro _
  exact calls_run_pure _

theorem login_user_rests (member : user ∈ users) (github : GithubUser) (stored : String) :
    RestsOn request users (loginUser user github stored) := by
  unfold loginUser
  have saved : ∀ isAdmin : Bool, RestsOn request users (do
      let user := { user with
        isAdmin := isAdmin
        githubAccessToken := some stored
        githubUsername := some github.login }
      saveUser user
      return user : UserHandler User) := by
    intro isAdmin
    have replaces : Replaces request users user { user with
        isAdmin := isAdmin
        githubAccessToken := some stored
        githubUsername := some github.login } :=
      ⟨rfl, Or.inr rfl, fun githubId same => Or.inl same⟩
    apply rests_then (save_rests (Or.inr ⟨user, member, replaces⟩))
    intro _
    exact calls_run_pure _
  by_cases isAdmin : user.isAdmin = true
  · rw [if_pos isAdmin]
    exact rests_harmless (calls_run_pure _) saved
  · rw [if_neg isAdmin]
    have listed : hasAdminUser.Calls Harmless :=
      (user_op_calls trivial).bind fun _ => calls_pure _
    apply rests_harmless (or_internal_calls listed)
    intro hasAdmin
    exact rests_harmless (calls_run_pure _) saved

theorem sign_up_user_rests (github : GithubUser) (stored : String) :
    RestsOn request users (signUpUser github stored) := by
  apply rests_bind list_users_answers
  intro found same
  apply rests_bind (require_answers _ _)
  intro _ nobody
  have empty : users = [] := by
    rw [← same]
    exact List.isEmpty_iff.mp nobody
  apply rests_harmless (new_github_harmless _ _ _)
  intro user
  dsimp only
  apply rests_then (save_rests (Or.inl empty))
  intro _
  exact calls_run_pure _

theorem github_callback_rests (code state : String) :
    RestsOn request users (githubCallback tokens authorization code state) := by
  apply rests_harmless (oauth_purpose_harmless state)
  intro purpose
  apply rests_bind (linking_answers tokens authorization purpose)
  intro linking known
  apply rests_harmless (github_identity_harmless code)
  rintro ⟨github, stored⟩
  apply rests_bind (get_github_user_answers github.id)
  intro currentOwner found
  subst found
  cases linking with
  | some user =>
      dsimp only
      apply rests_then (link_user_rests (known user rfl) github stored)
      intro linked
      exact auth_response_calls _ _ trivial
  | none =>
      cases owner : users.byGithubId github.id with
      | some user =>
          dsimp only
          apply rests_then (login_user_rests (List.mem_of_find?_eq_some owner) github stored)
          intro _
          exact auth_response_calls _ _ trivial
      | none =>
          dsimp only
          apply rests_then (sign_up_user_rests github stored)
          intro _
          exact auth_response_calls _ _ trivial

theorem delete_user_rests (id : Uuid) :
    RestsOn request users (deleteUser tokens authorization id) := by
  apply rests_bind (admin_answers tokens authorization)
  intro admin member
  apply rests_bind (require_answers _ _)
  intro _ different
  have another : admin.id ≠ id := of_decide_eq_true different
  apply rests_harmless (or_internal_calls (user_op_calls trivial))
  intro user
  apply rests_harmless (require_calls _ _)
  intro _
  apply rests_harmless (or_internal_calls (user_op_calls trivial))
  intro inventory
  refine rests_harmless_lift (delete_services_harmless id inventory) fun _ => ?_
  apply rests_then
  · apply or_internal_always.mpr
    apply user_op_always.mpr
    refine ⟨⟨admin, member, another⟩, fun answer after _ => ?_⟩
    cases answer with
    | ok found => trivial
    | error message => trivial
  · intro _
    exact calls_run_pure _

/-- A request that runs alone writes what the table bears out. -/
theorem handle_rests (request : Request) (users : Users) :
    (handle tokens request).Always userSystem.can (Rests request) (fun _ _ => True) users := by
  cases request with
  | register email password => exact register_rests email password
  | githubCallback authorization code state =>
      exact github_callback_rests tokens authorization code state
  | changePassword authorization currentPassword newPassword =>
      exact change_password_rests tokens authorization currentPassword newPassword trivial
  | githubUnlink authorization => exact github_unlink_rests tokens authorization
  | deleteUser authorization id => exact delete_user_rests tokens authorization id

end Alone

section Interleavings

variable {Thread : Type}

def Deleted (id : Uuid) (event : Event UserEffects Thread) : Prop :=
  ∃ found, (⟨event.op, event.answer⟩ : Call UserEffects) = ⟨.deleteUser id, Except.ok found⟩

/-- `change_password` stored the user. -/
def PasswordSet (requests : Thread → Request) (user : User) (event : Event UserEffects Thread) :
    Prop := Saved user event ∧ SetsPassword (requests event.thread)

def DistinctGithubIds (users : Users) : Prop :=
  ∀ first ∈ users, ∀ second ∈ users, ∀ githubId, first.githubId = some githubId →
    second.githubId = some githubId → first.id = second.id

def userRequests (tokens : Tokens) (requests : Thread → Request) (users : Users) :
    Pool UserEffects Thread (Except ApiError Response) Users :=
  ⟨fun thread => handle tokens (requests thread), users⟩

variable [DecidableEq Thread]

/-- The table is the one the successful requests leave in some order; a changed password
stands, a deleted user stays away and GitHub accounts are not shared. -/
structure InSomeOrder (tokens : Tokens) (requests : Thread → Request) (users : Users)
    (history : List (Event UserEffects Thread))
    (pool : Pool UserEffects Thread (Except ApiError Response) Users) : Prop where
  order : ∃ order : List Thread, order.Nodup ∧
    userStore.Serial userSystem.can (userRequests tokens requests users).threads pool.threads
      (fun thread => Pool.own thread history) order users pool.state ∧
    ∀ thread result, pool.threads thread = .pure result → (thread ∈ order ↔ Succeeds result)
  passwords : ∀ user, Since (fun _ => PasswordSet requests user)
      (fun event => ∃ other, PasswordSet requests other event ∧ other.id = user.id) history →
    ∀ row ∈ pool.state, row.id = user.id → row.passwordHash = user.passwordHash
  deleted : ∀ event ∈ history, ∀ id, Deleted id event → ∀ row ∈ pool.state, row.id ≠ id
  githubIds : DistinctGithubIds users → DistinctGithubIds pool.state

/-- Where a request writes, its reads could still be answered so that it comes to the same
write; a token is created. -/
abbrev ReadsStand (tokens : Tokens) (requests : Thread → Request) (users : Users) :
    Pool.Restriction UserEffects Thread (Except ApiError Response) Users :=
  userStore.Validated userSystem.can TokenCreated (userRequests tokens requests users)

variable {tokens : Tokens} {requests : Thread → Request} {users : Users}
  {history : List (Event UserEffects Thread)}
  {pool after : Pool UserEffects Thread (Except ApiError Response) Users}
  {event : Event UserEffects Thread}

omit [DecidableEq Thread] in
theorem saved_once {user other : User} (saved : Saved user event) (again : Saved other event) :
    user = other := by
  have same := saved.symm.trans again
  cases same
  rfl

omit [DecidableEq Thread] in
theorem saved_not_deleted {user : User} {id : Uuid} (saved : Saved user event) :
    ¬Deleted id event := by
  rintro ⟨found, deleted⟩
  have same := saved.symm.trans deleted
  cases same

theorem write_rests (met : ReadsStand tokens requests users history pool event)
    (taken : Pool.Step userSystem.can pool event after)
    (changes : userStore.Changes event.op event.answer) :
    Rests (requests event.thread) pool.state event.op := by
  obtain ⟨again, run, -⟩ := (met.2 changes).alone []
  have alone := (handle_rests tokens (requests event.thread) pool.state).reaches run.unrecorded
  obtain ⟨next, ready, -, -⟩ := taken.own
  rw [ready] at alone
  exact (always_call.mp alone).1

inductive TableStep (requests : Thread → Request) (event : Event UserEffects Thread)
    (before after : Users) : Prop where
  | saves (user : User) (saved : Saved user event)
      (table : after = upsert (·.id) (before.stored user) before)
      (rests : before = [] ∨ ∃ row ∈ before, Replaces (requests event.thread) before row user)
  | deletes (id : Uuid) (deleted : Deleted id event) (table : after = before.delete id)
      (rests : ∃ row ∈ before, row.id ≠ id)
  | keeps (noSave : ∀ user, ¬Saved user event) (noDelete : ∀ id, ¬Deleted id event)
      (same : after = before)

theorem table_step (met : ReadsStand tokens requests users history pool event)
    (taken : Pool.Step userSystem.can pool event after) :
    TableStep requests event pool.state after.state := by
  have rests := write_rests met taken
  obtain ⟨next, -, possible, -⟩ := taken.own
  obtain ⟨thread, op, answer⟩ := event
  cases op with
  | saveUser user =>
      rcases save_user_step possible with ⟨accepted, table⟩ | ⟨same, message, refused⟩
      · subst accepted
        exact .saves user rfl table (rests ⟨trivial, trivial⟩)
      · subst refused
        apply TableStep.keeps
        · intro other saved
          have whole : (⟨.saveUser user, Except.error message⟩ : Call UserEffects) =
            ⟨.saveUser other, Except.ok ()⟩ := saved
          cases whole
        · rintro id ⟨found, deleted⟩
          cases deleted
        · exact same
  | deleteUser id =>
      obtain ⟨fault, -, result⟩ := possible
      cases fault with
      | none =>
          have table : pool.state.delete id = after.state := congrArg Prod.snd result
          have answered : Except.ok _ = answer := congrArg Prod.fst result
          subst answered
          exact .deletes id ⟨_, rfl⟩ table.symm (rests ⟨trivial, trivial⟩)
      | some message =>
          have answered : Except.error message = answer := congrArg Prod.fst result
          subst answered
          apply TableStep.keeps
          · intro user saved
            cases saved
          · rintro other ⟨found, deleted⟩
            cases deleted
          · exact (congrArg Prod.snd result).symm
  | _ =>
      apply TableStep.keeps
      · intro user saved
        cases saved
      · rintro id ⟨found, deleted⟩
        cases deleted
      · exact users_kept possible (fun _ same => by cases same) fun _ same => by cases same

variable {before : Users}

theorem mem_delete {id : Uuid} {row : User} :
    row ∈ before.delete id ↔ row ∈ before ∧ row.id ≠ id := by
  simp [Users.delete]

omit [DecidableEq Thread] in
theorem TableStep.nonempty {after : Users} (step : TableStep requests event before after) :
    (∃ user, Saved user event) ∨ (∃ id, Deleted id event) ∨ before ≠ [] → after ≠ [] := by
  intro written
  cases step with
  | saves user saved table rests =>
      rw [table]
      have member : before.stored user ∈ upsert (·.id) (before.stored user) before :=
        mem_upsert.mpr (Or.inl rfl)
      exact List.ne_nil_of_mem member
  | deletes id deleted table rests =>
      obtain ⟨row, member, different⟩ := rests
      rw [table]
      exact List.ne_nil_of_mem (mem_delete.mpr ⟨member, different⟩)
  | keeps noSave noDelete same =>
      rw [same]
      rcases written with ⟨user, saved⟩ | ⟨id, deleted⟩ | nonempty
      · exact absurd saved (noSave user)
      · exact absurd deleted (noDelete id)
      · exact nonempty

/-- Once somebody was stored or deleted there is somebody. -/
theorem written_nonempty
    (trace : Pool.Trace userSystem.can (ReadsStand tokens requests users)
      (userRequests tokens requests users) history pool) :
    (∃ past ∈ history, (∃ user, Saved user past) ∨ ∃ id, Deleted id past) → pool.state ≠ [] := by
  apply trace.invariant fun history pool =>
    (∃ past ∈ history, (∃ user, Saved user past) ∨ ∃ id, Deleted id past) → pool.state ≠ []
  · rintro ⟨past, member, -⟩
    cases member
  · rintro history pool event after _ held taken met ⟨past, member, written⟩
    apply (table_step met taken).nonempty
    rcases List.mem_append.mp member with old | new
    · exact Or.inr (Or.inr (held ⟨past, old, written⟩))
    · rw [List.mem_singleton.mp new] at written
      rcases written with saved | deleted
      · exact Or.inl saved
      · exact Or.inr (Or.inl deleted)

theorem deleted_away
    (trace : Pool.Trace userSystem.can (ReadsStand tokens requests users)
      (userRequests tokens requests users) history pool) :
    ∀ event ∈ history, ∀ id, Deleted id event → ∀ row ∈ pool.state, row.id ≠ id := by
  apply trace.invariant fun history pool =>
    ∀ event ∈ history, ∀ id, Deleted id event → ∀ row ∈ pool.state, row.id ≠ id
  · intro event member
    cases member
  · intro history pool event after before held taken met past member id deleted row inTable
    rcases List.mem_append.mp member with old | new
    · have away := held past old id deleted
      have somebody := written_nonempty before ⟨past, old, Or.inr ⟨id, deleted⟩⟩
      cases table_step met taken with
      | saves user saved table rests =>
          rw [table] at inTable
          rcases mem_upsert.mp inTable with same | ⟨inBefore, -⟩
          · obtain ⟨replaced, wasThere, replaces⟩ := rests.resolve_left somebody
            have isUser : row.id = user.id := by
              rw [same]
              rfl
            rw [isUser, replaces.id]
            exact away replaced wasThere
          · exact away row inBefore
      | deletes other isDeleted table rests =>
          rw [table] at inTable
          exact away row (mem_delete.mp inTable).1
      | keeps noSave noDelete same =>
          rw [same] at inTable
          exact away row inTable
    · rw [List.mem_singleton.mp new] at deleted
      cases table_step met taken with
      | saves user saved table rests => exact absurd deleted (saved_not_deleted saved)
      | deletes other isDeleted table rests =>
          obtain ⟨found, first⟩ := deleted
          obtain ⟨found', second⟩ := isDeleted
          have same := first.symm.trans second
          cases same
          rw [table] at inTable
          exact (mem_delete.mp inTable).2
      | keeps noSave noDelete same => exact absurd deleted (noDelete id)

theorem password_stands
    (trace : Pool.Trace userSystem.can (ReadsStand tokens requests users)
      (userRequests tokens requests users) history pool) :
    ∀ user, Since (fun _ => PasswordSet requests user)
        (fun event => ∃ other, PasswordSet requests other event ∧ other.id = user.id) history →
      ∀ row ∈ pool.state, row.id = user.id → row.passwordHash = user.passwordHash := by
  apply trace.invariant fun history pool => ∀ user,
    Since (fun _ => PasswordSet requests user)
        (fun event => ∃ other, PasswordSet requests other event ∧ other.id = user.id) history →
      ∀ row ∈ pool.state, row.id = user.id → row.passwordHash = user.passwordHash
  · intro user since
    exact absurd since since_nil
  · intro history pool event after before held taken met user since row inTable isUser
    rcases since_append since with set | ⟨earlier, quiet⟩
    · cases table_step met taken with
      | saves other saved table rests =>
          rw [saved_once set.1 saved] at isUser ⊢
          rw [table] at inTable
          rcases mem_upsert.mp inTable with same | ⟨-, different⟩
          · rw [same]
            rfl
          · exact absurd isUser different
      | deletes id deleted table rests => exact absurd deleted (saved_not_deleted set.1)
      | keeps noSave noDelete same => exact absurd set.1 (noSave user)
    · have stands := held user earlier
      have somebody : pool.state ≠ [] := by
        obtain ⟨first, set, later, split, isSet, -⟩ := earlier
        apply written_nonempty before
        exact ⟨set, by rw [split]; simp, Or.inl ⟨user, isSet.1⟩⟩
      cases table_step met taken with
      | saves other saved table rests =>
          rw [table] at inTable
          rcases mem_upsert.mp inTable with same | ⟨inBefore, -⟩
          · obtain ⟨replaced, wasThere, replaces⟩ := rests.resolve_left somebody
            have isOther : other.id = user.id := by
              rw [← isUser, same]
              rfl
            have hash : row.passwordHash = other.passwordHash := by
              rw [same]
              rfl
            rcases replaces.password with sets | kept
            · exact absurd ⟨other, ⟨saved, sets⟩, isOther⟩ quiet
            · rw [hash, kept]
              apply stands replaced wasThere
              rw [← replaces.id, isOther]
          · exact stands row inBefore isUser
      | deletes id deleted table rests =>
          rw [table] at inTable
          exact stands row (mem_delete.mp inTable).1 isUser
      | keeps noSave noDelete same =>
          rw [same] at inTable
          exact stands row inTable isUser

theorem replaces_github {request : Request} {row user other : User} {githubId : Int}
    (distinct : DistinctGithubIds before) (replaces : Replaces request before row user)
    (wasThere : row ∈ before) (inBefore : other ∈ before) (has : user.githubId = some githubId)
    (hasToo : other.githubId = some githubId) : other.id = user.id := by
  rw [replaces.id]
  rcases replaces.github githubId has with same | free
  · exact distinct other inBefore row wasThere githubId hasToo same
  · cases found : before.byGithubId githubId with
    | none =>
        have absent := List.find?_eq_none.mp found other inBefore
        simp [hasToo] at absent
    | some owner =>
        rw [← free owner found]
        unfold Users.byGithubId at found
        have owns : owner.githubId = some githubId := by simpa using List.find?_some found
        exact distinct other inBefore owner (List.mem_of_find?_eq_some found) githubId hasToo owns

theorem github_ids_distinct (start : DistinctGithubIds users)
    (trace : Pool.Trace userSystem.can (ReadsStand tokens requests users)
      (userRequests tokens requests users) history pool) : DistinctGithubIds pool.state := by
  apply trace.invariant fun _ pool => DistinctGithubIds pool.state
  · exact start
  · intro history pool event after _ distinct taken met
    cases table_step met taken with
    | saves user saved table rests =>
        have others : ∀ other ∈ pool.state, other.id ≠ user.id → ∀ githubId,
            user.githubId = some githubId → other.githubId = some githubId → False := by
          intro other inBefore different githubId has hasToo
          rcases rests with empty | ⟨row, wasThere, replaces⟩
          · rw [empty] at inBefore
            cases inBefore
          · exact different (replaces_github distinct replaces wasThere inBefore has hasToo)
        rw [table]
        intro first firstMember second secondMember githubId has hasToo
        rcases mem_upsert.mp firstMember with same | ⟨inBefore, different⟩
        · rcases mem_upsert.mp secondMember with same' | ⟨inBefore', different'⟩
          · rw [same, same']
          · rw [same] at has
            exact (others second inBefore' different' githubId has hasToo).elim
        · rcases mem_upsert.mp secondMember with same' | ⟨inBefore', -⟩
          · rw [same'] at hasToo
            exact (others first inBefore different githubId hasToo has).elim
          · exact distinct first inBefore second inBefore' githubId has hasToo
    | deletes id deleted table rests =>
        rw [table]
        intro first firstMember second secondMember
        exact distinct first (mem_delete.mp firstMember).1 second (mem_delete.mp secondMember).1
    | keeps noSave noDelete same =>
        rw [same]
        exact distinct

/-- Any number of `change_password`, `github_unlink`, `github_callback`, `delete_user` and
`register` requests at once leave the table as in some order, as long as each meets, where
it writes, a table in which what it has read could still be read. -/
theorem users_serializable (tokens : Tokens) (requests : Thread → Request) (users : Users)
    {history : List (Event UserEffects Thread)}
    {pool : Pool UserEffects Thread (Except ApiError Response) Users}
    (trace : Pool.Trace userSystem.can (ReadsStand tokens requests users)
      (userRequests tokens requests users) history pool) :
    InSomeOrder tokens requests users history pool where
  order := by
    have programs : ∀ thread, userStore.WritesOnce TokenCreated Succeeds
        ((userRequests tokens requests users).threads thread) :=
      fun thread => handle_once tokens (requests thread)
    obtain ⟨order, distinct, serial, phases⟩ :=
      SharedStore.serializable user_store_serves programs trace
    refine ⟨order, distinct, serial, fun thread result ended => ?_⟩
    have phase := phases thread
    rw [ended] at phase
    constructor
    · intro member
      exact under_pure.mp (phase.1 member)
    · intro succeeds
      by_contra absent
      exact (SharedStore.writes_once_pure _).mp (phase.2 absent) succeeds
  passwords := password_stands trace
  deleted := deleted_away trace
  githubIds start := github_ids_distinct start trace

def writesRow : UserOp → Bool
  | .saveUser _ | .deleteUser _ => true
  | _ => false

def touchesTable : UserOp → Bool
  | .getUser _ | .listUsers | .getUserByEmail _ | .getUserByGithubId _ => true
  | op => writesRow op

def tokenCreated : (op : UserOp) → op.Answer → Bool
  | .createToken _ _, answer => match answer with
    | .ok _ => true
    | .error _ => false
  | _, _ => true

/-- A step of another request, or of this one outside the table. -/
def aside (event past : Event UserEffects Thread) : Bool :=
  !(past.thread = event.thread && touchesTable past.op)

def undisturbed (history : List (Event UserEffects Thread))
    (_ : Pool UserEffects Thread (Except ApiError Response) Users)
    (event : Event UserEffects Thread) : Bool :=
  tokenCreated event.op event.answer && (!writesRow event.op ||
    (history.dropWhile (aside event)).all fun past => !writesRow past.op)

variable {op : UserOp}

theorem writes_row_of_writes (writes : userStore.writes op) : writesRow op = true := by
  cases op with
  | saveUser user => rfl
  | deleteUser id => rfl
  | _ => exact writes.elim

theorem outside_of_untouched (untouched : touchesTable op = false) : userStore.Outside op := by
  cases op with
  | getUser _ | listUsers | getUserByEmail _ | getUserByGithubId _ => cases untouched
  | saveUser _ | deleteUser _ => cases untouched
  | _ => exact ⟨not_false, not_false⟩

theorem token_created_of_check {answer : op.Answer} (created : tokenCreated op answer = true) :
    TokenCreated op answer := by
  cases op with
  | createToken id email =>
      cases answer with
      | ok token => trivial
      | error message => cases created
  | _ => trivial

/-- It is enough that no other request writes in between. -/
theorem reads_stand_of_undisturbed {meets : Pool.Restriction UserEffects Thread
      (Except ApiError Response) Users}
    (trace : Pool.Trace userSystem.can meets (userRequests tokens requests users) history pool)
    (passed : undisturbed history pool event = true) :
    ReadsStand tokens requests users history pool event := by
  obtain ⟨created, quiet⟩ := Bool.and_eq_true_iff.mp passed
  refine ⟨token_created_of_check created, fun changes => ?_⟩
  rw [writes_row_of_writes changes.1, Bool.not_true, Bool.false_or, List.all_eq_true] at quiet
  have split : history = history.takeWhile (aside event) ++ history.dropWhile (aside event) :=
    List.takeWhile_append_dropWhile.symm
  apply SharedStore.leads_undisturbed user_store_serves trace split
  · intro past member own
    have isAside : aside event past = true := List.mem_takeWhile_imp member
    have untouched : touchesTable past.op = false := by simpa [aside, own] using isAside
    exact outside_of_untouched untouched
  · intro past member _ writes
    have unwritten := quiet past member
    rw [writes_row_of_writes writes] at unwritten
    cases unwritten
  · intro past member changed
    have unwritten := quiet past member
    rw [writes_row_of_writes changed.1] at unwritten
    cases unwritten

end Interleavings

def demoUsers : Users :=
  [⟨⟨1⟩, "ada@example.org", none, none, none, none, false, 0, 0⟩,
    ⟨⟨2⟩, "root@example.org", some "hash", none, none, none, true, 0, 0⟩]

def demoTokens : Tokens := fun token => if token = "ada" then .ok ⟨1⟩ else .ok ⟨2⟩

def demoUserRequests (deletes : Bool) : Request :=
  if deletes then .deleteUser (some "Bearer root") ⟨1⟩
  else .changePassword (some "Bearer ada") none "battery staple"

def demoUserPool : Pool UserEffects Bool (Except ApiError Response) Users :=
  userRequests demoTokens demoUserRequests demoUsers

def bothSucceeded (pool : Pool UserEffects Bool (Except ApiError Response) Users) : Bool :=
  (pool.threads false).returned = some (.ok .noContent) &&
    (pool.threads true).returned = some (.ok .noContent)

def demoUsersInTurn : List (Bool × userSystem.Policy) :=
  userTurns false ⟨3⟩ 4 ++ userTurns true ⟨3⟩ 4

theorem users_serializable_in_turn :
    ∃ history pool, InSomeOrder demoTokens demoUserRequests demoUsers history pool ∧
      bothSucceeded pool = true ∧ pool.state.byId ⟨1⟩ = none := by
  have ran : (Pool.executeChecked userSystem undisturbed demoUsersInTurn [] demoUserPool).map
      (fun last => (bothSucceeded last.2, last.2.state.byId ⟨1⟩)) = some (true, none) := by
    decide +kernel
  obtain ⟨⟨history, pool⟩, executed, ended⟩ := Option.map_eq_some_iff.mp ran
  have trace : Pool.Trace userSystem.can (ReadsStand demoTokens demoUserRequests demoUsers)
      demoUserPool history pool :=
    Pool.Trace.of_checked_reached (fun _ _ _ _ => trivial)
      (fun _ _ _ reached passed => reads_stand_of_undisturbed reached passed) .start executed
  have parts := Prod.mk.inj ended
  exact ⟨history, pool, users_serializable demoTokens demoUserRequests demoUsers trace, parts⟩

/-- The password is stored after the deletion, from a row read before it. -/
def demoUsersOverlap : List (Bool × userSystem.Policy) :=
  userTurns false ⟨3⟩ 1 ++ userTurns true ⟨3⟩ 4 ++ userTurns false ⟨3⟩ 3

def deletesRow (id : Uuid) : Event UserEffects Bool → Bool
  | ⟨_, .deleteUser other, answer⟩ => match answer with
    | .ok _ => other = id
    | .error _ => false
  | _ => false

theorem deleted_of_check {id : Uuid} {event : Event UserEffects Bool}
    (deletes : deletesRow id event = true) : Deleted id event := by
  obtain ⟨thread, op, answer⟩ := event
  cases op with
  | deleteUser other =>
      cases answer with
      | ok found =>
          have same : other = id := of_decide_eq_true deletes
          subst same
          exact ⟨found, rfl⟩
      | error message => cases deletes
  | _ => cases deletes

theorem deleted_user_reappears :
    ∃ history pool, Pool.Trace userSystem.can (fun _ _ _ => True) demoUserPool history pool ∧
      bothSucceeded pool = true ∧
      ¬InSomeOrder demoTokens demoUserRequests demoUsers history pool := by
  have ran : (Pool.execute userSystem demoUsersOverlap demoUserPool).map
      (fun last => (bothSucceeded last.2, last.1.any (deletesRow ⟨1⟩),
        last.2.state.any (·.id = ⟨1⟩))) = some (true, true, true) := by decide +kernel
  obtain ⟨⟨history, pool⟩, executed, ended⟩ := Option.map_eq_some_iff.mp ran
  obtain ⟨succeeded, rest⟩ := Prod.mk.inj ended
  obtain ⟨deletes, back⟩ := Prod.mk.inj rest
  refine ⟨history, pool, Pool.Trace.of_execute (fun _ _ _ _ => trivial) executed, succeeded, ?_⟩
  intro ordered
  obtain ⟨event, member, deleted⟩ := List.any_eq_true.mp deletes
  obtain ⟨row, inTable, isIt⟩ := List.any_eq_true.mp back
  exact ordered.deleted event member ⟨1⟩ (deleted_of_check deleted) row inTable
    (of_decide_eq_true isIt)

end Containr.Auth
