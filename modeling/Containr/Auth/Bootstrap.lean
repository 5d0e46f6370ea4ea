import Containr.Auth.Users
import Containr.Effect.Serial

/-!
# The first account

`register` and the sign-up branch of `github_callback` count the users, ask outside for a
hash or for GitHub's answers, and save. A save is `Justified` when the request found the
user in the table before or counted none; of two requests that both counted none, both
save. Nobody but the first signs up when no save goes through between a count and the
save that follows from it.
-/

namespace Containr.Auth

open Containr.Effect
open Containr.Effect.Program

section Calls

variable {State : Type} {can : Behaviour UserEffects State} {ok : State → UserOp → Prop}
  {allowed : UserOp → Prop} {Value : Type} {state : State}

theorem user_op_always {op : UserOp} {post : op.Answer → State → Prop} :
    op.call.Always can ok post state ↔ ok state op ∧ ∀ answer after,
      can op state answer after → post answer after := by
  unfold UserOp.call
  exact @always_perform UserEffects State can ok op post state

theorem user_op_calls {op : UserOp} (permitted : allowed op) : op.call.Calls allowed :=
  @calls_perform UserEffects allowed op permitted

variable {program : Program UserEffects (Except String Value)}

variable {post : Except ApiError Value → State → Prop}

/-- `map_err(internal_error)` and what follows an answer. -/
theorem or_internal_always : (orInternal program).run.Always can ok post state ↔
      program.Always can ok (fun result after => match result with
        | .ok value => post (.ok value) after
        | .error _ => post (.error internalError) after) state := by
  unfold orInternal
  rw [always_run_map]
  apply always_congr
  intro result after
  cases result with
  | ok value => exact Iff.rfl
  | error message => exact Iff.rfl

theorem or_internal_calls (calls : program.Calls allowed) :
    (orInternal program).run.Calls allowed :=
  calls.bind fun _ => calls_pure _

theorem or_error_calls {error : String → ApiError} (calls : program.Calls allowed) :
    (orError error program).run.Calls allowed :=
  calls.bind fun _ => calls_pure _

theorem require_calls (condition : Bool) (error : ApiError) :
    (require condition error).run.Calls allowed := by
  unfold require
  split
  · exact calls_run_pure _
  · exact calls_pure _

theorem refuse_calls (error : ApiError) : (refuse error : UserHandler Value).run.Calls allowed :=
  calls_pure _

theorem check_calls {Other : Type} {outcome : Except ApiError Value}
    {continuation : Value → UserHandler Other}
    (rest : ∀ value, outcome = .ok value → (continuation value).run.Calls allowed) :
    (ExceptT.mk (.pure outcome) >>= continuation).run.Calls allowed := by
  cases outcome with
  | ok value => exact rest value rfl
  | error error => exact calls_pure _

/-- A condition that does not hold ends the request. -/
theorem require_always {condition : Bool} {error : ApiError}
    {continuation : Unit → UserHandler Value}
    (met : condition = true → (continuation ()).run.Always can ok post state)
    (failed : post (.error error) state) :
    (require condition error >>= continuation).run.Always can ok post state := by
  apply always_run_bind.mpr
  unfold require
  by_cases holds : condition = true
  · rw [if_pos holds]
    exact always_run_pure.mpr (met holds)
  · rw [if_neg holds]
    exact always_pure.mpr failed

end Calls

section Steps

variable {before after : Users}

theorem faulty_ok {Reply : Type} {fault : Option String} {reply result : Reply}
    (answered : faulty fault reply = .ok result) : result = reply := by
  cases fault with
  | some message => cases answered
  | none => exact (Except.ok.inj answered).symm

/-- Only a save and a deletion change the table. -/
theorem users_kept {op : UserOp} {answer : op.Answer} (can : userSystem.can op before answer after)
    (noSave : ∀ user, op ≠ .saveUser user) (noDelete : ∀ id, op ≠ .deleteUser id) :
    after = before := by
  obtain ⟨choice, -, result⟩ := can
  have same : (op.exec choice before).2 = after := congrArg Prod.snd result
  rw [← same]
  cases op with
  | saveUser user => exact absurd rfl (noSave user)
  | deleteUser id => exact absurd rfl (noDelete id)
  | _ => rfl

theorem get_user_found {id : Uuid} {user : User}
    (can : userSystem.can (.getUser id) before (.ok (some user)) after) :
    user ∈ before ∧ user.id = id := by
  obtain ⟨fault, -, result⟩ := can
  have found : some user = before.byId id := faulty_ok (congrArg Prod.fst result)
  exact lookup_eq_some_mem found.symm

theorem get_github_user_found {githubId : Int} {user : User}
    (can : userSystem.can (.getUserByGithubId githubId) before (.ok (some user)) after) :
    user ∈ before ∧ user.githubId = some githubId := by
  obtain ⟨fault, -, result⟩ := can
  have found : some user = before.find? (fun row => row.githubId = some githubId) :=
    faulty_ok (congrArg Prod.fst result)
  have holds := List.find?_some found.symm
  exact ⟨List.mem_of_find?_eq_some found.symm, of_decide_eq_true holds⟩

theorem list_users_answer {users : List User}
    (can : userSystem.can .listUsers before (.ok users) after) : users = before := by
  obtain ⟨fault, -, result⟩ := can
  exact faulty_ok (congrArg Prod.fst result)

theorem save_user_step {user : User} {answer : Except String Unit}
    (can : userSystem.can (.saveUser user) before answer after) :
    (answer = .ok () ∧ after = upsert (·.id) (before.stored user) before) ∨
      (after = before ∧ ∃ message, answer = .error message) := by
  obtain ⟨fault, -, result⟩ := can
  have executed : UserOp.exec (.saveUser user) fault before = (answer, after) := result
  cases fault with
  | some message =>
      cases executed
      exact Or.inr ⟨rfl, message, rfl⟩
  | none =>
      unfold UserOp.exec at executed
      dsimp only at executed
      cases saved : before.save user with
      | none =>
          rw [saved] at executed
          cases executed
          exact Or.inr ⟨rfl, _, rfl⟩
      | some table =>
          rw [saved] at executed
          cases executed
          unfold Users.save at saved
          split_ifs at saved with taken
          exact Or.inl ⟨rfl, (Option.some.inj saved).symm⟩

end Steps

def Shows (id : Uuid) : Call UserEffects → Prop
  | ⟨.getUser _, answer⟩ => ∃ user : User, answer = Except.ok (some user) ∧ user.id = id
  | ⟨.getUserByGithubId _, answer⟩ => ∃ user : User, answer = Except.ok (some user) ∧ user.id = id
  | _ => False

def countedNone : Call UserEffects := ⟨.listUsers, Except.ok []⟩

def Justified (calls : List (Call UserEffects)) : UserOp → Prop
  | .saveUser user => countedNone ∈ calls ∨ ∃ call ∈ calls, Shows user.id call
  | .deleteUser _ => False
  | _ => True

def Harmless : UserOp → Prop
  | .saveUser _ | .deleteUser _ => False
  | _ => True

def SavesOnly (id : Uuid) : UserOp → Prop
  | .saveUser user => user.id = id
  | .deleteUser _ => False
  | _ => True

def DeletesNobody : UserOp → Prop
  | .deleteUser _ => False
  | _ => True

section Justified

variable {Value : Type} {program : Program UserEffects Value} {calls : List (Call UserEffects)}

theorem justified_harmless {op : UserOp} (harmless : Harmless op) : Justified calls op := by
  cases op with
  | saveUser user => exact harmless.elim
  | deleteUser id => exact harmless.elim
  | _ => trivial

variable {seen : List (Call UserEffects) → Prop}

theorem always_from_seen {allowed : UserOp → Prop} (makes : program.Calls allowed)
    (start : seen calls) (grows : ∀ before call, seen before → seen (before ++ [call]))
    (justifies : ∀ before op, allowed op → seen before → Justified before op) :
    program.Always Recording Justified (fun _ after => seen after) calls := by
  induction program generalizing calls with
  | pure value => exact always_pure.mpr start
  | call op next ih =>
      apply always_call.mpr
      refine ⟨justifies calls op makes.head start, ?_⟩
      rintro answer after rfl
      exact ih answer (makes.next answer) (grows calls _ start)

theorem harmless_always (makes : program.Calls Harmless) (start : seen calls)
    (grows : ∀ before call, seen before → seen (before ++ [call])) :
    program.Always Recording Justified (fun _ after => seen after) calls :=
  always_from_seen makes start grows fun _ _ harmless _ => justified_harmless harmless

theorem quiet_always (makes : program.Calls Harmless) (calls : List (Call UserEffects)) :
    program.Always Recording Justified (fun _ _ => True) calls := by
  have grows : ∀ (before : List (Call UserEffects)) (call : Call UserEffects), True → True :=
    fun _ _ _ => trivial
  exact harmless_always makes trivial grows

theorem counted_always (makes : program.Calls DeletesNobody) (counted : countedNone ∈ calls) :
    program.Always Recording Justified (fun _ _ => True) calls := by
  have justifies : ∀ before op, DeletesNobody op → countedNone ∈ before → Justified before op := by
    intro before op allowed member
    cases op with
    | saveUser user => exact Or.inl member
    | deleteUser id => exact allowed.elim
    | _ => trivial
  have held := always_from_seen makes counted (fun _ _ member => List.mem_append_left _ member)
    justifies
  exact held.mono fun _ _ _ => trivial

theorem shown_always {id : Uuid} (makes : program.Calls (SavesOnly id))
    (shown : ∃ call ∈ calls, Shows id call) :
    program.Always Recording Justified (fun _ _ => True) calls := by
  have grows : ∀ before added, (∃ call ∈ before, Shows id call) →
      ∃ call ∈ before ++ [added], Shows id call := by
    rintro before added ⟨call, member, shows⟩
    exact ⟨call, List.mem_append_left _ member, shows⟩
  have justifies : ∀ before op, SavesOnly id op → (∃ call ∈ before, Shows id call) →
      Justified before op := by
    intro before op allowed member
    cases op with
    | saveUser user =>
        have same : user.id = id := allowed
        rw [← same] at member
        exact Or.inr member
    | deleteUser other => exact allowed.elim
    | _ => trivial
  exact (always_from_seen makes shown grows justifies).mono fun _ _ _ => trivial

end Justified

section Handlers

variable {allowed : UserOp → Prop}

theorem auth_response_calls (user : User) (linked : Bool)
    (token : allowed (.createToken user.id user.email)) :
    (authResponse user linked).run.Calls allowed :=
  (or_internal_calls (user_op_calls token)).run_return

theorem oauth_purpose_harmless (state : String) : (oauthPurpose state).run.Calls Harmless := by
  unfold oauthPurpose timestamp
  apply Calls.run_lift_bind (user_op_calls trivial)
  intro now
  apply Calls.run_lift_bind (user_op_calls trivial)
  intro taken
  cases taken with
  | none => exact refuse_calls _
  | some entry => exact (require_calls _ _).run_return

theorem github_identity_harmless (code : String) : (githubIdentity code).run.Calls Harmless := by
  apply Calls.run_bind (or_error_calls (user_op_calls trivial))
  intro accessToken
  apply Calls.run_bind (or_error_calls (user_op_calls trivial))
  intro github
  exact (or_error_calls (user_op_calls trivial)).run_return

theorem linking_user_shown (tokens : Tokens) (authorization : Authorization)
    (purpose : OAuthPurpose) (calls : List (Call UserEffects)) :
    (linkingUser tokens authorization purpose).run.Always Recording Justified
      (fun result after => ∀ user, result = .ok (some user) → ∃ call ∈ after, Shows user.id call)
      calls := by
  cases purpose with
  | login =>
      apply always_run_pure.mpr
      intro user same
      cases same
  | link userId =>
      unfold linkingUser requireAuthenticatedUser
      cases identified : getUserId tokens authorization with
      | error error =>
          apply always_run_bind.mpr
          apply always_run_bind.mpr
          apply always_pure.mpr
          intro user same
          cases same
      | ok id =>
          rw [always_run_bind, always_run_bind, always_run_mk, always_pure]
          apply always_run_bind.mpr
          apply or_internal_always.mpr
          apply user_op_always.mpr
          refine ⟨trivial, ?_⟩
          rintro answer after rfl
          cases answer with
          | error message =>
              intro user same
              cases same
          | ok found =>
              cases found with
              | none =>
                  apply always_pure.mpr
                  intro user same
                  cases same
              | some user =>
                  apply always_run_pure.mpr
                  apply require_always
                  · intro _
                    apply always_run_pure.mpr
                    intro other same
                    cases same
                    exact ⟨_, List.mem_append_right _ List.mem_cons_self, user, rfl, rfl⟩
                  · intro other same
                    cases same

theorem save_user_calls {user : User} (permitted : allowed (.saveUser user)) :
    (saveUser user).run.Calls allowed := or_internal_calls (user_op_calls permitted)

theorem link_github_id {user linked : User} {currentOwner : Option User} {github : GithubUser}
    {stored : String} (accepted : linkGithub user currentOwner github stored = .ok linked) :
    linked.id = user.id := by
  unfold linkGithub at accepted
  split_ifs at accepted
  cases accepted
  rfl

theorem link_user_saves (user : User) (currentOwner : Option User) (github : GithubUser)
    (stored : String) :
    (linkUser user currentOwner github stored).run.Calls (SavesOnly user.id) := by
  apply check_calls
  intro linked accepted
  have same := link_github_id accepted
  apply Calls.run_lift_bind (user_op_calls trivial)
  intro now
  exact (save_user_calls same).run_return

theorem login_user_saves (user : User) (github : GithubUser) (stored : String) :
    (loginUser user github stored).run.Calls (SavesOnly user.id) := by
  unfold loginUser
  have saved : ∀ isAdmin : Bool, (do
      let user := { user with
        isAdmin := isAdmin
        githubAccessToken := some stored
        githubUsername := some github.login }
      saveUser user
      return user : UserHandler User).run.Calls (SavesOnly user.id) := by
    intro isAdmin
    apply Calls.run_bind
    · apply save_user_calls
      exact rfl
    · intro _
      exact calls_run_pure _
  by_cases isAdmin : user.isAdmin = true
  · rw [if_pos isAdmin]
    exact (calls_run_pure _).run_bind saved
  · rw [if_neg isAdmin]
    have listed : hasAdminUser.Calls (SavesOnly user.id) :=
      (user_op_calls trivial).bind fun _ => calls_pure _
    apply Calls.run_bind (or_internal_calls listed)
    intro hasAdmin
    exact (calls_run_pure _).run_bind saved

theorem counting_justified {Value : Type} {error : ApiError} {rest : UserHandler Value}
    (makes : rest.run.Calls DeletesNobody) (calls : List (Call UserEffects)) :
    (do
      let users ← orInternal UserOp.listUsers.call
      require users.isEmpty error
      rest).run.Always Recording Justified (fun _ _ => True) calls := by
  apply always_run_bind.mpr
  apply or_internal_always.mpr
  apply user_op_always.mpr
  refine ⟨trivial, ?_⟩
  rintro answer after rfl
  cases answer with
  | error message => trivial
  | ok users =>
      refine require_always (fun empty => ?_) trivial
      have nobody : users = [] := List.isEmpty_iff.mp empty
      rw [nobody]
      exact counted_always makes (List.mem_append_right _ List.mem_cons_self)

theorem register_justified (email password : String) :
    (register email password).run.Always Recording Justified (fun _ _ => True) [] := by
  apply counting_justified
  apply Calls.run_bind (or_internal_calls (user_op_calls trivial))
  intro existing
  apply Calls.run_bind (require_calls _ _)
  intro _
  apply Calls.run_bind (require_calls _ _)
  intro _
  apply Calls.run_bind (or_internal_calls (user_op_calls trivial))
  intro passwordHash
  apply Calls.run_bind
  · apply Calls.run_lift_bind (user_op_calls trivial)
    intro now
    exact Calls.run_lift_return (user_op_calls trivial)
  · intro user
    apply Calls.run_bind (save_user_calls trivial)
    intro _
    exact auth_response_calls _ _ trivial

theorem sign_up_user_justified (github : GithubUser) (stored : String)
    (calls : List (Call UserEffects)) :
    (signUpUser github stored).run.Always Recording Justified (fun _ _ => True) calls := by
  apply counting_justified
  apply Calls.run_bind
  · apply Calls.run_lift_bind (user_op_calls trivial)
    intro now
    exact Calls.run_lift_return (user_op_calls trivial)
  · intro user
    exact (save_user_calls trivial).run_return

/-- Whoever is updated was found in the table, by the session or as the owner of the
GitHub account. -/
theorem github_callback_justified (tokens : Tokens) (authorization : Authorization)
    (code state : String) :
    (githubCallback tokens authorization code state).run.Always Recording Justified
      (fun _ _ => True) [] := by
  have response : ∀ (user : User) (linked : Bool) (calls : List (Call UserEffects)),
      (authResponse user linked).run.Always Recording Justified (fun _ _ => True) calls :=
    fun user linked calls => quiet_always (auth_response_calls user linked trivial) calls
  apply (quiet_always (oauth_purpose_harmless state) []).run_bind
  intro result calls _
  cases result with
  | error error => trivial
  | ok purpose =>
  apply (linking_user_shown tokens authorization purpose calls).run_bind
  intro linked calls shown
  cases linked with
  | error error => trivial
  | ok linking =>
  apply always_run_bind.mpr
  have grows : ∀ (before : List (Call UserEffects)) (added : Call UserEffects),
      (∀ user, linking = some user → ∃ call ∈ before, Shows user.id call) →
      ∀ user, linking = some user → ∃ call ∈ before ++ [added], Shows user.id call := by
    intro before added seen user same
    obtain ⟨call, member, shows⟩ := seen user same
    exact ⟨call, List.mem_append_left _ member, shows⟩
  have start : ∀ user, linking = some user → ∃ call ∈ calls, Shows user.id call := by
    intro user same
    exact shown user (congrArg Except.ok same)
  apply (harmless_always (github_identity_harmless code) start grows).mono
  intro identity calls seen
  cases identity with
  | error error => trivial
  | ok identity =>
  obtain ⟨github, stored⟩ := identity
  apply always_run_bind.mpr
  apply or_internal_always.mpr
  apply user_op_always.mpr
  refine ⟨trivial, ?_⟩
  rintro answer after rfl
  cases answer with
  | error message => trivial
  | ok currentOwner =>
  cases linking with
  | some user =>
      apply always_run_bind.mpr
      have still := grows calls ⟨.getUserByGithubId github.id, Except.ok currentOwner⟩ seen
      apply (shown_always (link_user_saves user currentOwner github stored) (still user rfl)).mono
      intro saved calls _
      cases saved with
      | error error => trivial
      | ok user => exact response user true calls
  | none =>
      cases currentOwner with
      | some user =>
          apply always_run_bind.mpr
          have found : ∃ call ∈ calls ++ [⟨.getUserByGithubId github.id, Except.ok (some user)⟩],
              Shows user.id call :=
            ⟨_, List.mem_append_right _ List.mem_cons_self, user, rfl, rfl⟩
          apply (shown_always (login_user_saves user github stored) found).mono
          intro saved calls _
          cases saved with
          | error error => trivial
          | ok user => exact response user false calls
      | none =>
          apply (sign_up_user_justified github stored _).run_bind
          intro saved calls _
          cases saved with
          | error error => trivial
          | ok user => exact response user false calls

end Handlers

/-- The requests that may create an account without an administrator. -/
def SignsUp : Request → Prop
  | .register _ _ | .githubCallback _ _ _ => True
  | _ => False

theorem handle_justified {tokens : Tokens} {request : Request} (signsUp : SignsUp request) :
    (handle tokens request).Always Recording Justified (fun _ _ => True) [] := by
  cases request with
  | register email password => exact register_justified email password
  | githubCallback authorization code state =>
      exact github_callback_justified tokens authorization code state
  | changePassword _ _ _ => exact signsUp.elim
  | githubUnlink _ => exact signsUp.elim
  | deleteUser _ _ => exact signsUp.elim

section Interleavings

variable {Thread : Type}

def Saved (user : User) (event : Event UserEffects Thread) : Prop :=
  (⟨event.op, event.answer⟩ : Call UserEffects) = ⟨.saveUser user, Except.ok ()⟩

def CountedNone (thread : Thread) (event : Event UserEffects Thread) : Prop :=
  event.thread = thread ∧ (⟨event.op, event.answer⟩ : Call UserEffects) = countedNone

/-- When an account is created, nobody was saved since the request counted the users. -/
def CountedAlone : Pool.Restriction UserEffects Thread (Except ApiError Response) Users :=
  fun history pool event => ∀ user, Saved user event → pool.state.byId user.id = none →
    ¬∃ before count later, history = before ++ count :: later ∧ CountedNone event.thread count ∧
      ∃ other ∈ later, ∃ saved, Saved saved other

structure OneAccount (history : List (Event UserEffects Thread)) (users : Users) : Prop where
  created : ∀ first ∈ history, ∀ second ∈ history, ∀ user other,
    Saved user first → Saved other second → user.id = other.id
  admins : (users.filter (·.isAdmin)).length ≤ 1

variable [DecidableEq Thread]

def firstRequests (tokens : Tokens) (requests : Thread → Request) :
    Pool UserEffects Thread (Except ApiError Response) Users :=
  ⟨fun thread => handle tokens (requests thread), []⟩

variable {tokens : Tokens} {requests : Thread → Request}
  {meets : Pool.Restriction UserEffects Thread (Except ApiError Response) Users}
  {history : List (Event UserEffects Thread)}
  {pool after : Pool UserEffects Thread (Except ApiError Response) Users}
  {event : Event UserEffects Thread}

theorem step_justified (signsUp : ∀ thread, SignsUp (requests thread))
    (trace : Pool.Trace userSystem.can meets (firstRequests tokens requests) history pool)
    (taken : Pool.Step userSystem.can pool event after) :
    Justified (Pool.own event.thread history) event.op := by
  obtain ⟨next, ready, -, -⟩ := taken.own
  have always := (handle_justified (signsUp event.thread)).reaches (trace.recorded event.thread)
  rw [ready, always_call] at always
  exact always.1

/-- A step saves a user who then is in the table, or leaves the table alone. -/
theorem sign_up_step (justified : Justified (Pool.own event.thread history) event.op)
    (taken : Pool.Step userSystem.can pool event after) :
    (∃ user, Saved user event ∧
      after.state = upsert (·.id) (pool.state.stored user) pool.state) ∨
    ((∀ user, ¬Saved user event) ∧ after.state = pool.state) := by
  obtain ⟨next, ready, possible, continued⟩ := taken.own
  obtain ⟨thread, op, answer⟩ := event
  by_cases saves : ∃ user, op = .saveUser user
  · obtain ⟨user, rfl⟩ := saves
    rcases save_user_step possible with ⟨accepted, table⟩ | ⟨same, message, refused⟩
    · exact Or.inl ⟨user, by rw [Saved, accepted], table⟩
    · refine Or.inr ⟨fun other saved => ?_, same⟩
      have whole : (⟨.saveUser user, answer⟩ : Call UserEffects) =
        ⟨.saveUser other, Except.ok ()⟩ := saved
      cases whole
      cases refused
  · have noSave : ∀ user, op ≠ .saveUser user := fun user same => saves ⟨user, same⟩
    have noDelete : ∀ id, op ≠ .deleteUser id := by
      rintro id rfl
      exact justified
    refine Or.inr ⟨fun user saved => ?_, users_kept possible noSave noDelete⟩
    exact noSave user (congrArg Sigma.fst saved)

def Present (users : Users) (id : Uuid) : Prop := ∃ row ∈ users, row.id = id

variable {id : Uuid} {users : Users}

theorem present_upsert {row : User} :
    Present (upsert (·.id) row users) id ↔ row.id = id ∨ Present users id := by
  constructor
  · rintro ⟨other, member, same⟩
    rcases mem_upsert.mp member with rfl | ⟨old, -⟩
    · exact Or.inl same
    · exact Or.inr ⟨other, old, same⟩
  · intro either
    by_cases same : row.id = id
    · exact ⟨row, mem_upsert.mpr (Or.inl rfl), same⟩
    · obtain ⟨other, member, isIt⟩ := either.resolve_left same
      refine ⟨other, mem_upsert.mpr (Or.inr ⟨member, ?_⟩), isIt⟩
      rw [isIt]
      exact Ne.symm same

def Knows (id : Uuid) (event : Event UserEffects Thread) : Prop :=
  Shows id ⟨event.op, event.answer⟩ ∨ ∃ user, Saved user event ∧ user.id = id

omit [DecidableEq Thread] in
theorem shows_present (possible : userSystem.can event.op pool.state event.answer
    after.state) (shows : Shows id ⟨event.op, event.answer⟩) : Present pool.state id := by
  obtain ⟨thread, op, answer⟩ := event
  cases op with
  | getUser wanted =>
      obtain ⟨user, rfl, same⟩ := shows
      exact ⟨user, (get_user_found possible).1, same⟩
  | getUserByGithubId githubId =>
      obtain ⟨user, rfl, same⟩ := shows
      exact ⟨user, (get_github_user_found possible).1, same⟩
  | _ => exact shows.elim

/-- Nobody is deleted, so what was shown or saved is in the table. -/
theorem known_present (signsUp : ∀ thread, SignsUp (requests thread))
    (trace : Pool.Trace userSystem.can meets (firstRequests tokens requests) history pool) :
    ∀ past ∈ history, ∀ id, Knows id past → Present pool.state id := by
  apply trace.invariant fun history pool =>
    ∀ past ∈ history, ∀ id, Knows id past → Present pool.state id
  · intro past member
    cases member
  · intro history pool event after trace held taken _
    obtain ⟨next, -, possible, -⟩ := taken.own
    have step := sign_up_step (step_justified signsUp trace taken) taken
    have grows : ∀ id, Present pool.state id → Present after.state id := by
      intro id present
      rcases step with ⟨user, -, table⟩ | ⟨-, same⟩
      · rw [table]
        exact present_upsert.mpr (Or.inr present)
      · rw [same]
        exact present
    intro past member id known
    rcases List.mem_append.mp member with old | new
    · exact grows id (held past old id known)
    · rw [List.mem_singleton.mp new] at known
      rcases known with shows | ⟨user, saved, isIt⟩
      · exact grows id (shows_present possible shows)
      · rcases step with ⟨other, stored, table⟩ | ⟨none, -⟩
        · have same : user = other := by
            have both := saved.symm.trans stored
            cases both
            rfl
          rw [table]
          apply present_upsert.mpr
          rw [← isIt, same]
          exact Or.inl rfl
        · exact absurd saved (none user)

theorem upsert_length_present {row : User} (present : Present users row.id) :
    (upsert (·.id) row users).length = users.length := by
  obtain ⟨other, member, same⟩ := present
  unfold upsert
  rw [if_pos (List.any_eq_true.mpr ⟨other, member, by simpa using same⟩), List.length_map]

theorem new_counted (signsUp : ∀ thread, SignsUp (requests thread))
    (trace : Pool.Trace userSystem.can meets (firstRequests tokens requests) history pool)
    (taken : Pool.Step userSystem.can pool event after) {user : User} (saved : Saved user event)
    (absent : ¬Present pool.state user.id) : ∃ count ∈ history, CountedNone event.thread count := by
  have justified := step_justified signsUp trace taken
  have known := known_present signsUp trace
  obtain ⟨thread, op, answer⟩ := event
  cases saved
  have calls : ∀ call ∈ Pool.own thread history, ∃ past ∈ history, past.thread = thread ∧
      (⟨past.op, past.answer⟩ : Call UserEffects) = call := by
    intro call member
    obtain ⟨past, own, same⟩ := List.mem_map.mp member
    have parts := List.mem_filter.mp own
    exact ⟨past, parts.1, of_decide_eq_true parts.2, same⟩
  rcases justified with counted | ⟨call, member, shows⟩
  · obtain ⟨past, inHistory, own, same⟩ := calls _ counted
    exact ⟨past, inHistory, own, same⟩
  · obtain ⟨past, inHistory, -, same⟩ := calls call member
    rw [← same] at shows
    exact absurd (known past inHistory user.id (Or.inl shows)) absent

theorem by_id_none : users.byId id = none ↔ ¬Present users id := by
  have whole : users.byId id = none ↔ ∀ row ∈ users, ¬row.id = id := by
    simp [Users.byId, lookup]
  rw [whole]
  constructor
  · rintro absent ⟨row, member, same⟩
    exact absent row member same
  · intro absent row member same
    exact absent ⟨row, member, same⟩

/-- As long as nobody is saved after a count of none, there is nobody. -/
theorem empty_since_count (signsUp : ∀ thread, SignsUp (requests thread))
    (trace : Pool.Trace userSystem.can meets (firstRequests tokens requests) history pool) :
    ∀ thread, Since (fun _ => CountedNone thread) (fun past => ∃ user, Saved user past) history →
      pool.state = [] := by
  apply trace.invariant fun history pool => ∀ thread,
    Since (fun _ => CountedNone thread) (fun past => ∃ user, Saved user past) history →
      pool.state = []
  · intro thread since
    exact absurd since since_nil
  · intro history pool event after trace held taken _ thread since
    have step := sign_up_step (step_justified signsUp trace taken) taken
    rcases since_append since with counted | ⟨before, quiet⟩
    · obtain ⟨next, -, possible, -⟩ := taken.own
      obtain ⟨caller, op, answer⟩ := event
      obtain ⟨-, same⟩ := counted
      cases same
      have kept : after.state = pool.state :=
        users_kept possible (fun _ equal => by cases equal) fun _ equal => by cases equal
      rw [kept]
      exact (list_users_answer possible).symm
    · rcases step with ⟨user, saved, -⟩ | ⟨-, same⟩
      · exact absurd ⟨user, saved⟩ quiet
      · rw [same]
        exact held thread before

/-- One step of `counted_alone_length`. -/
theorem counted_alone_step (signsUp : ∀ thread, SignsUp (requests thread))
    (trace : Pool.Trace userSystem.can meets (firstRequests tokens requests) history pool)
    (taken : Pool.Step userSystem.can pool event after) (alone : CountedAlone history pool event)
    (short : pool.state.length ≤ 1) : after.state.length ≤ 1 := by
  rcases sign_up_step (step_justified signsUp trace taken) taken with
    ⟨user, saved, table⟩ | ⟨-, same⟩
  · rw [table]
    by_cases present : Present pool.state user.id
    · have kept : (upsert (·.id) (pool.state.stored user) pool.state).length =
          pool.state.length := upsert_length_present present
      omega
    · obtain ⟨count, member, counted⟩ := new_counted signsUp trace taken saved present
      obtain ⟨before, later, split⟩ := List.append_of_mem member
      have quiet : ∀ other ∈ later, ¬∃ user, Saved user other := by
        rintro other inLater ⟨saved', isSave⟩
        exact alone user saved (by_id_none.mpr present)
          ⟨before, count, later, split, counted, other, inLater, saved', isSave⟩
      have empty := empty_since_count signsUp trace event.thread
        ⟨before, count, later, split, counted, quiet⟩
      rw [empty]
      exact le_refl 1
  · rw [same]
    exact short

theorem counted_alone_length (signsUp : ∀ thread, SignsUp (requests thread))
    (trace : Pool.Trace userSystem.can CountedAlone (firstRequests tokens requests) history pool) :
    pool.state.length ≤ 1 := by
  apply trace.invariant fun _ pool => pool.state.length ≤ 1
  · exact Nat.zero_le 1
  · intro history pool event after trace short taken alone
    exact counted_alone_step signsUp trace taken alone short

theorem one_account_of_short (signsUp : ∀ thread, SignsUp (requests thread))
    (trace : Pool.Trace userSystem.can meets (firstRequests tokens requests) history pool)
    (short : pool.state.length ≤ 1) : OneAccount history pool.state where
  created := by
    intro first firstMember second secondMember user other saved saved'
    have known := known_present signsUp trace
    obtain ⟨row, inTable, isUser⟩ := known first firstMember user.id (Or.inr ⟨user, saved, rfl⟩)
    obtain ⟨row', inTable', isOther⟩ :=
      known second secondMember other.id (Or.inr ⟨other, saved', rfl⟩)
    have same : row = row' := by
      match table : pool.state, short with
      | [], _ =>
          rw [table] at inTable
          cases inTable
      | [only], _ =>
          rw [table] at inTable inTable'
          rw [List.mem_singleton.mp inTable, List.mem_singleton.mp inTable']
    rw [← isUser, ← isOther, same]
  admins := (List.length_filter_le _ _).trans short

theorem two_accounts (signsUp : ∀ thread, SignsUp (requests thread))
    (trace : Pool.Trace userSystem.can meets (firstRequests tokens requests) history pool)
    (one : ∀ first ∈ history ++ [event], ∀ second ∈ history ++ [event], ∀ user other,
      Saved user first → Saved other second → user.id = other.id) :
    CountedAlone history pool event := by
  rintro user saved absent ⟨before, count, later, split, -, other, inLater, earlier, isSave⟩
  have inHistory : other ∈ history := by
    rw [split]
    exact List.mem_append_right _ (List.mem_cons_of_mem _ inLater)
  have same := one other (List.mem_append_left _ inHistory) event
    (List.mem_append_right _ List.mem_cons_self) earlier user isSave saved
  have present := known_present signsUp trace other inHistory earlier.id
    (Or.inr ⟨earlier, isSave, rfl⟩)
  rw [same] at present
  exact by_id_none.mp absent present

/-- Any number of `register` and `github_callback` requests at once, from no user at all,
create at most one account exactly when each account is created with nobody saved since
its request counted the users. -/
theorem bootstrap_once_iff (tokens : Tokens) (requests : Thread → Request)
    (signsUp : ∀ thread, SignsUp (requests thread))
    {history : List (Event UserEffects Thread)}
    {pool : Pool UserEffects Thread (Except ApiError Response) Users}
    (trace : Pool.Trace userSystem.can (fun _ _ _ => True) (firstRequests tokens requests) history
      pool) :
    OneAccount history pool.state ↔
      Pool.Trace userSystem.can CountedAlone (firstRequests tokens requests) history pool := by
  constructor
  · intro one
    have created := one.created
    clear one
    induction trace with
    | start => exact .start
    | @step history before event after trace taken _ ih =>
        have earlier := ih fun first firstMember second secondMember =>
          created first (List.mem_append_left _ firstMember) second
            (List.mem_append_left _ secondMember)
        exact earlier.step taken (two_accounts signsUp earlier created)
  · intro alone
    exact one_account_of_short signsUp alone (counted_alone_length signsUp alone)

end Interleavings

def plainAnswers (id : Uuid) : userSystem.Policy
  | .getUser _, _ => none
  | .listUsers, _ => none
  | .getUserByEmail _, _ => none
  | .getUserByGithubId _, _ => none
  | .saveUser _, _ => none
  | .deleteUser _, _ => none
  | .takeOauthState _, _ => none
  | .timestamp, _ => (0 : Int)
  | .utcNow, _ => (0 : Time)
  | .newUuid, _ => id
  | .hashPassword password, _ => Except.ok password
  | .verifyPassword _ _, _ => Except.ok true
  | .exchangeCode code, _ => Except.ok code
  | .githubUser _, _ => Except.error "unreachable"
  | .encryptValue value, _ => Except.ok value
  | .createToken _ email, _ => Except.ok email
  | .serviceInventory _, _ => Except.ok []
  | .deleteService _ _, _ => Except.ok ()

/-- So many calls of one thread. -/
def userTurns (thread : Bool) (id : Uuid) (count : Nat) : List (Bool × userSystem.Policy) :=
  List.replicate count (thread, plainAnswers id)

def noTokens : Tokens := fun _ => .error "invalid token"

def demoRegistrations (second : Bool) : Request :=
  if second then .register "eve@example.org" "correct horse"
  else .register "ada@example.org" "battery staple"

theorem demo_registrations_sign_up (second : Bool) : SignsUp (demoRegistrations second) := by
  cases second with
  | false => trivial
  | true => trivial

def demoFirst : Pool UserEffects Bool (Except ApiError Response) Users :=
  firstRequests noTokens demoRegistrations

/-- One registration runs through, then the other is refused. -/
def demoInTurn : List (Bool × userSystem.Policy) :=
  userTurns false ⟨1⟩ 7 ++ userTurns true ⟨2⟩ 1

theorem bootstrap_once_in_turn :
    ∃ history pool, Pool.Trace userSystem.can CountedAlone demoFirst history pool ∧
      pool.state.length = 1 := by
  have ran : (Pool.execute userSystem demoInTurn demoFirst).map (fun last => last.2.state.length) =
      some 1 := by decide +kernel
  obtain ⟨⟨history, pool⟩, executed, length⟩ := Option.map_eq_some_iff.mp ran
  have trace := Pool.Trace.of_execute (fun _ _ _ _ => trivial) executed
  have one := one_account_of_short demo_registrations_sign_up trace (le_of_eq length)
  have alone := (bootstrap_once_iff noTokens demoRegistrations demo_registrations_sign_up trace).mp
    one
  exact ⟨history, pool, alone, length⟩

/-- Both registrations count before either saves. -/
def demoOverlap : List (Bool × userSystem.Policy) :=
  userTurns false ⟨1⟩ 1 ++ userTurns true ⟨2⟩ 7 ++ userTurns false ⟨1⟩ 6

theorem two_first_accounts :
    ∃ history pool, Pool.Trace userSystem.can (fun _ _ _ => True) demoFirst history pool ∧
      (pool.state.filter (·.isAdmin)).length = 2 ∧ ¬OneAccount history pool.state := by
  have ran : (Pool.execute userSystem demoOverlap demoFirst).map
      (fun last => (last.2.state.filter (·.isAdmin)).length) = some 2 := by decide +kernel
  obtain ⟨⟨history, pool⟩, executed, length⟩ := Option.map_eq_some_iff.mp ran
  have two : (pool.state.filter (·.isAdmin)).length = 2 := length
  refine ⟨history, pool, Pool.Trace.of_execute (fun _ _ _ _ => trivial) executed, two, ?_⟩
  intro one
  have admins := one.admins
  omega

end Containr.Auth
