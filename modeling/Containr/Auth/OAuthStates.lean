import Containr.Effect.Map
import Containr.Models

/-!
# The states of the github sign-in

`insert_oauth_state`, `take_oauth_state` and `cleanup_expired_oauth_states` of
`containr-api/src/state.rs`. The cleanup adds what is left of a state's lifetime to the
instant of its creation, so it is right only about states in the first half of their
lifetime: an older one is dropped, and the difference of an expired one is negative, which
the cast to `u64` turns into a duration that no instant can take.
-/

namespace Containr.Auth

open Containr.Effect

inductive OAuthPurpose where
  | login
  | link (userId : Uuid)
deriving DecidableEq, Repr

/-- `createdAt` is an `Instant`, in nanoseconds of the monotonic clock. -/
structure OAuthState where
  expiresAt : Int
  createdAt : Nat
  purpose : OAuthPurpose
deriving DecidableEq, Repr

abbrev OAuthStates : Type := Map String OAuthState

/-- Both clocks at one call: seconds of UTC within the years `chrono` has, and nanoseconds of
the monotonic clock, which the kernel keeps in 63 bits. -/
structure Reading where
  now : Int
  instant : Nat
  nowInRange : -2 ^ 43 < now ∧ now < 2 ^ 43
  instantInRange : instant < 2 ^ 63

def insertOauthState (states : OAuthStates) (instant : Nat) (state : String) (expiresAt : Int)
    (purpose : OAuthPurpose) : OAuthStates := states.insert state ⟨expiresAt, instant, purpose⟩

def takeOauthState (states : OAuthStates) (state : String) :
    Option (Int × OAuthPurpose) × OAuthStates :=
  ((states.get state).map fun entry => (entry.expiresAt, entry.purpose), states.remove state)

/-- `value as u64`. -/
def asU64 (value : Int) : Nat := (value % 2 ^ 64).toNat

/-- `instant + Duration::from_secs(seconds)`; `none` is the panic of an instant whose seconds
leave 63 bits. -/
def addSeconds (instant seconds : Nat) : Option Nat :=
  if instant / 10 ^ 9 + seconds < 2 ^ 63 then some (instant + seconds * 10 ^ 9) else none

/-- The filter of the cleanup. -/
def looksExpired (reading : Reading) (entry : OAuthState) : Option Bool :=
  (addSeconds entry.createdAt (asU64 (entry.expiresAt - reading.now))).map
    fun instant => instant < reading.instant

/-- The keys are collected before any is removed: `none` is a panic that removes nothing. -/
def cleanupExpiredOauthStates (reading : Reading) (states : OAuthStates) : Option OAuthStates :=
  if states.entries.any fun entry => (looksExpired reading entry.2).isNone then none
  else some (states.retain fun _ entry => looksExpired reading entry ≠ some true)

/-- `github_authorize_url` inserts a state that expires in 600 seconds. -/
inductive OAuthCall where
  | insert (state : String) (purpose : OAuthPurpose)
  | take (state : String)
  | cleanup
deriving DecidableEq, Repr

def afterCall (states : OAuthStates) (reading : Reading) : OAuthCall → OAuthStates
  | .insert state purpose =>
      insertOauthState states reading.instant state (reading.now + 600) purpose
  | .take state => (takeOauthState states state).2
  | .cleanup => (cleanupExpiredOauthStates reading states).getD states

def statesAfter (calls : List (Reading × OAuthCall)) : OAuthStates :=
  calls.foldl (fun states call => afterCall states call.1 call.2) Map.empty

/-- Neither clock goes back. -/
def Nondecreasing (calls : List (Reading × OAuthCall)) : Prop :=
  calls.Pairwise fun earlier later =>
    earlier.1.now ≤ later.1.now ∧ earlier.1.instant ≤ later.1.instant

def pendingStep (pending : String → Option (Int × OAuthPurpose)) (reading : Reading) :
    OAuthCall → String → Option (Int × OAuthPurpose)
  | .insert state purpose => Function.update pending state (some (reading.now + 600, purpose))
  | .take state => Function.update pending state none
  | .cleanup => pending

def pendingAfter (calls : List (Reading × OAuthCall)) : String → Option (Int × OAuthPurpose) :=
  calls.foldl (fun pending call => pendingStep pending call.1 call.2) fun _ => none

/-- A taken or unknown state is not found, a pending one is found up to its expiry; a cleanup
returns and removes the expired states and no others. -/
def CallServed (before : List (Reading × OAuthCall)) (reading : Reading) : OAuthCall → Prop
  | .insert _ _ => True
  | .take state =>
      (pendingAfter before state = none → (takeOauthState (statesAfter before) state).1 = none) ∧
      ∀ expiry purpose, pendingAfter before state = some (expiry, purpose) → reading.now ≤ expiry →
        (takeOauthState (statesAfter before) state).1 = some (expiry, purpose)
  | .cleanup => ∃ cleaned, cleanupExpiredOauthStates reading (statesAfter before) = some cleaned ∧
      ∀ state, cleaned.get state =
        ((statesAfter before).get state).filter fun entry => reading.now ≤ entry.expiresAt

def Lifecycle (calls : List (Reading × OAuthCall)) : Prop :=
  ∀ before reading call after, calls = before ++ (reading, call) :: after →
    CallServed before reading call

/-- No stored state is expired, and none is older than what is left of its lifetime. -/
def Timely (reading : Reading) (states : OAuthStates) : Prop :=
  ∀ state entry, states.get state = some entry →
    reading.now ≤ entry.expiresAt ∧
      reading.instant ≤ entry.createdAt + (entry.expiresAt - reading.now).toNat * 10 ^ 9

/-- What holds of every stored state: it was made from a reading. -/
structure Ranged (entry : OAuthState) : Prop where
  expiry : -2 ^ 43 < entry.expiresAt ∧ entry.expiresAt < 2 ^ 43 + 600
  created : entry.createdAt < 2 ^ 63

theorem as_u64_nonneg {value : Int} (nonneg : 0 ≤ value) (small : value < 2 ^ 64) :
    asU64 value = value.toNat := by
  unfold asU64
  rw [Int.emod_eq_of_lt nonneg small]

theorem as_u64_negative {value : Int} (negative : value < 0) (small : -2 ^ 63 ≤ value) :
    2 ^ 63 ≤ asU64 value := by
  unfold asU64
  omega

variable {reading : Reading}

theorem looks_expired_past {entry : OAuthState} (ranged : Ranged entry)
    (past : entry.expiresAt < reading.now) : looksExpired reading entry = none := by
  have bounds := reading.nowInRange
  have expiry := ranged.expiry
  have large := @as_u64_negative (entry.expiresAt - reading.now) (by omega) (by omega)
  unfold looksExpired addSeconds
  rw [if_neg (by omega), Option.map_none]

theorem looks_expired_live {entry : OAuthState} (ranged : Ranged entry)
    (live : reading.now ≤ entry.expiresAt) : looksExpired reading entry = some (decide
      (entry.createdAt + (entry.expiresAt - reading.now).toNat * 10 ^ 9 < reading.instant)) := by
  have bounds := reading.nowInRange
  have expiry := ranged.expiry
  have created := ranged.created
  have cast := @as_u64_nonneg (entry.expiresAt - reading.now) (by omega) (by omega)
  have fits : entry.createdAt / 10 ^ 9 + (entry.expiresAt - reading.now).toNat < 2 ^ 63 := by
    omega
  unfold looksExpired addSeconds
  rw [cast, if_pos fits, Option.map_some]

def AllRanged (states : OAuthStates) : Prop :=
  ∀ state entry, states.get state = some entry → Ranged entry

variable {states : OAuthStates}

theorem cleanup_timely (ranged : AllRanged states) (timely : Timely reading states) :
    ∃ cleaned, cleanupExpiredOauthStates reading states = some cleaned ∧
      ∀ state, cleaned.get state = states.get state := by
  have kept : ∀ state entry, states.get state = some entry →
      looksExpired reading entry = some false := by
    intro state entry stored
    obtain ⟨live, young⟩ := timely state entry stored
    rw [looks_expired_live (ranged state entry stored) live]
    exact congrArg some (decide_eq_false (by omega))
  have returns : (states.entries.any fun entry => (looksExpired reading entry.2).isNone) = false := by
    rw [List.any_eq_false]
    rintro ⟨state, entry⟩ member
    simp [kept state entry (Map.get_eq_some.mpr member)]
  unfold cleanupExpiredOauthStates
  rw [returns, if_neg Bool.false_ne_true]
  refine ⟨_, rfl, fun state => ?_⟩
  rw [Map.get_retain]
  cases stored : states.get state with
  | none => rfl
  | some entry => simp [kept state entry stored]

theorem timely_of_cleaned {cleaned : OAuthStates} (ranged : AllRanged states)
    (returned : cleanupExpiredOauthStates reading states = some cleaned)
    (exact : ∀ state, cleaned.get state =
      (states.get state).filter fun entry => reading.now ≤ entry.expiresAt) :
    Timely reading states := by
  unfold cleanupExpiredOauthStates at returned
  split_ifs at returned with panics
  cases returned
  intro state entry stored
  have live : reading.now ≤ entry.expiresAt := by
    by_contra past
    apply panics
    rw [List.any_eq_true]
    refine ⟨(state, entry), Map.get_eq_some.mp stored, ?_⟩
    rw [looks_expired_past (ranged state entry stored) (by omega)]
    rfl
  refine ⟨live, ?_⟩
  have kept := exact state
  rw [Map.get_retain, stored, Option.filter_some, Option.filter_some,
    if_pos (decide_eq_true live)] at kept
  by_contra old
  have dropped : looksExpired reading entry = some true := by
    rw [looks_expired_live (ranged state entry stored) live]
    exact congrArg some (decide_eq_true (by omega))
  rw [dropped, if_neg (by decide)] at kept
  cases kept

/-- A cleanup does what it is for exactly when every stored state is timely. -/
theorem cleanup_served_iff {before : List (Reading × OAuthCall)}
    (ranged : AllRanged (statesAfter before)) :
    CallServed before reading .cleanup ↔ Timely reading (statesAfter before) := by
  constructor
  · rintro ⟨cleaned, returned, exact⟩
    exact timely_of_cleaned ranged returned exact
  · intro timely
    obtain ⟨cleaned, returned, same⟩ := cleanup_timely ranged timely
    refine ⟨cleaned, returned, fun state => ?_⟩
    rw [same state]
    cases stored : (statesAfter before).get state with
    | none => rfl
    | some entry =>
        rw [Option.filter_some, if_pos (decide_eq_true (timely state entry stored).1)]

variable (calls : List (Reading × OAuthCall))

theorem states_after_append (reading : Reading) (call : OAuthCall) :
    statesAfter (calls ++ [(reading, call)]) = afterCall (statesAfter calls) reading call := by
  unfold statesAfter
  rw [List.foldl_append]
  rfl

theorem pending_after_append (reading : Reading) (call : OAuthCall) :
    pendingAfter (calls ++ [(reading, call)]) = pendingStep (pendingAfter calls) reading call := by
  unfold pendingAfter
  rw [List.foldl_append]
  rfl

theorem ranged_after_call (ranged : AllRanged states) (reading : Reading) (call : OAuthCall) :
    AllRanged (afterCall states reading call) := by
  intro state entry stored
  cases call with
  | insert inserted purpose =>
      unfold afterCall insertOauthState at stored
      rw [Map.get_insert] at stored
      split_ifs at stored with same
      · cases stored
        have bounds := reading.nowInRange
        exact ⟨by constructor <;> dsimp only <;> omega, reading.instantInRange⟩
      · exact ranged state entry stored
  | take taken =>
      unfold afterCall takeOauthState at stored
      rw [Map.get_remove] at stored
      split_ifs at stored with same
      exact ranged state entry stored
  | cleanup =>
      unfold afterCall cleanupExpiredOauthStates at stored
      split_ifs at stored with panics
      · exact ranged state entry stored
      · rw [Option.getD_some, Map.get_retain, Option.filter_eq_some_iff] at stored
        exact ranged state entry stored.1

theorem ranged_after : AllRanged (statesAfter calls) := by
  induction calls using List.reverseRecOn with
  | nil =>
      intro state entry stored
      cases stored
  | append_singleton calls last ih =>
      rw [states_after_append]
      exact ranged_after_call ih last.1 last.2

def TimelyCleanups (calls : List (Reading × OAuthCall)) : Prop :=
  ∀ before reading after, calls = before ++ (reading, .cleanup) :: after →
    Timely reading (statesAfter before)

theorem TimelyCleanups.front {calls : List (Reading × OAuthCall)} {last : Reading × OAuthCall}
    (timely : TimelyCleanups (calls ++ [last])) : TimelyCleanups calls := by
  intro before reading after split
  apply timely before reading (after ++ [last])
  rw [split, List.append_assoc, List.cons_append]

/-- While the cleanups find timely states the table is the list of pending states. -/
theorem pending_stored {calls : List (Reading × OAuthCall)} (timely : TimelyCleanups calls)
    (state : String) :
    ((statesAfter calls).get state).map (fun entry => (entry.expiresAt, entry.purpose)) =
      pendingAfter calls state := by
  induction calls using List.reverseRecOn with
  | nil => rfl
  | append_singleton calls last ih =>
      have earlier := ih timely.front
      obtain ⟨reading, call⟩ := last
      rw [states_after_append, pending_after_append]
      cases call with
      | insert inserted purpose =>
          unfold afterCall insertOauthState
          dsimp only [pendingStep]
          rw [Map.get_insert]
          by_cases same : state = inserted
          · rw [if_pos same, same, Function.update_self]
            rfl
          · rw [if_neg same, Function.update_of_ne same]
            exact earlier
      | take taken =>
          unfold afterCall takeOauthState
          dsimp only [pendingStep]
          rw [Map.get_remove]
          by_cases same : state = taken
          · rw [if_pos same, same, Function.update_self]
            rfl
          · rw [if_neg same, Function.update_of_ne same]
            exact earlier
      | cleanup =>
          obtain ⟨cleaned, returned, kept⟩ :=
            cleanup_timely (ranged_after calls) (timely calls reading [] rfl)
          unfold afterCall pendingStep
          rw [returned, Option.getD_some, kept state]
          exact earlier

/-- A run keeps the lifecycle of every state exactly when each of its cleanups finds only
states that are unexpired and no older than what is left of their lifetime. -/
theorem oauth_lifecycle_iff (calls : List (Reading × OAuthCall)) :
    Lifecycle calls ↔ TimelyCleanups calls := by
  constructor
  · intro lifecycle before reading after split
    exact (cleanup_served_iff (ranged_after before)).mp
      (lifecycle before reading .cleanup after split)
  · intro timely before reading call after split
    have front : TimelyCleanups before := by
      intro earlier other rest splitBefore
      apply timely earlier other (rest ++ (reading, call) :: after)
      rw [split, splitBefore, List.append_assoc, List.cons_append]
    cases call with
    | insert inserted purpose => trivial
    | take taken =>
        have stored := pending_stored front taken
        refine ⟨fun unknown => stored.trans unknown, ?_⟩
        intro expiry purpose pending _
        exact stored.trans pending
    | cleanup =>
        rw [split] at timely
        exact (cleanup_served_iff (ranged_after before)).mpr (timely before reading after rfl)

/-- With clocks that advance together a state made at `made` is timely for 300 seconds. -/
theorem timely_first_half {boot made : Int} {purpose : OAuthPurpose} (started : boot ≤ made)
    (later : made ≤ reading.now) (inStep : reading.instant = (reading.now - boot).toNat * 10 ^ 9)
    (state : String) :
    Timely reading (Map.empty.insert state ⟨made + 600, (made - boot).toNat * 10 ^ 9, purpose⟩) ↔
      reading.now ≤ made + 300 := by
  have only : ∀ other entry, ((Map.empty : OAuthStates).insert state
      ⟨made + 600, (made - boot).toNat * 10 ^ 9, purpose⟩).get other = some entry →
        entry = ⟨made + 600, (made - boot).toNat * 10 ^ 9, purpose⟩ := by
    intro other entry stored
    rw [Map.get_insert] at stored
    split_ifs at stored
    · exact (Option.some.inj stored).symm
    · cases stored
  constructor
  · intro timely
    have held := timely state _ (Map.get_insert_same _ _ _)
    dsimp only at held
    omega
  · intro young other entry stored
    rw [only other entry stored]
    dsimp only
    omega

/-- Both clocks at a number of seconds. -/
def readingAt (seconds : Fin 1000) : Reading where
  now := seconds
  instant := seconds * 10 ^ 9
  nowInRange := by omega
  instantInRange := by omega

/-- A cleanup in the second half of a state's lifetime drops it; one after its expiry
panics and leaves it. -/
theorem oauth_lifecycle_broken :
    (Nondecreasing [(readingAt 0, .insert "s" .login), (readingAt 301, .cleanup)] ∧
      (statesAfter [(readingAt 0, .insert "s" .login), (readingAt 301, .cleanup)]).get "s" = none ∧
      ¬Lifecycle [(readingAt 0, .insert "s" .login), (readingAt 301, .cleanup)]) ∧
    Nondecreasing [(readingAt 0, .insert "s" .login), (readingAt 601, .cleanup)] ∧
      cleanupExpiredOauthStates (readingAt 601)
        (statesAfter [(readingAt 0, .insert "s" .login)]) = none ∧
      ¬Lifecycle [(readingAt 0, .insert "s" .login), (readingAt 601, .cleanup)] := by
  have stored : (statesAfter [(readingAt 0, .insert "s" .login)]).get "s" =
      some ⟨600, 0, .login⟩ := by decide
  have ordered : ∀ seconds : Fin 1000,
      Nondecreasing [(readingAt 0, .insert "s" .login), (readingAt seconds, .cleanup)] := by
    intro seconds
    unfold Nondecreasing
    simp [readingAt]
  refine ⟨⟨ordered 301, by decide, ?_⟩, ordered 601, by decide, ?_⟩
  · intro lifecycle
    obtain ⟨cleaned, returned, exact⟩ :=
      lifecycle [(readingAt 0, .insert "s" .login)] (readingAt 301) .cleanup [] rfl
    have removed : cleaned.get "s" = none := by
      have computed : (cleanupExpiredOauthStates (readingAt 301)
          (statesAfter [(readingAt 0, .insert "s" .login)])).bind (fun cleaned => cleaned.get "s") =
            none := by decide
      rw [returned] at computed
      exact computed
    have live := exact "s"
    rw [removed, stored] at live
    exact absurd live (by decide)
  · intro lifecycle
    obtain ⟨cleaned, returned, -⟩ :=
      lifecycle [(readingAt 0, .insert "s" .login)] (readingAt 601) .cleanup [] rfl
    have panics : cleanupExpiredOauthStates (readingAt 601)
        (statesAfter [(readingAt 0, .insert "s" .login)]) = none := by decide
    rw [panics] at returned
    cases returned

end Containr.Auth
