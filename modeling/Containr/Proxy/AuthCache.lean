import Containr.Proxy.Admission
import Mathlib.Data.Finset.Card

/-!
# What the caches of basic auth hold

The route states stand here as in memory. Every state there has been has a position,
which is what an `Arc` of it amounts to; a domain leads to a position, and a pending
verification keeps the position it was issued for, whether or not a domain still leads
there. The basic auth of a state never changes, so a verification counts from the
moment it writes.
-/

namespace Containr.Proxy.Shared

open Containr.Effect

/-- What basic auth uses of a `RouteState`; the counters are left out. -/
structure RouteState where
  route : Route
  authCache : Finset String
deriving DecidableEq

structure PendingBasicAuth where
  state : Nat
  header : String
  username : String
  password : String
deriving DecidableEq, Repr

inductive BasicAuthCheck where
  | notRequired | allowed | denied
  | verify (pending : PendingBasicAuth)
deriving DecidableEq, Repr

structure RouteManager where
  states : List RouteState
  routes : Map String Nat
deriving DecidableEq

def RouteState.cacheHeader (state : RouteState) (header : String) : RouteState :=
  let kept := if maxAuthCacheEntries ≤ state.authCache.card then ∅ else state.authCache
  { state with authCache := insert header kept }

variable (lib : Libraries)

namespace RouteManager

def new : RouteManager := ⟨[], Map.empty⟩

def addRoute (manager : RouteManager) (route : Route) : RouteManager where
  states := manager.states ++ [{
    route := { route with domain := normalizeDomain lib route.domain }
    authCache := ∅ }]
  routes := manager.routes.insert (normalizeDomain lib route.domain) manager.states.length

def removeRoute (manager : RouteManager) (domain : String) : RouteManager :=
  { manager with routes := manager.routes.remove (normalizeDomain lib domain) }

def find (manager : RouteManager) (domain : String) : Option (Nat × RouteState) := do
  let position ← manager.routes.get (normalizeDomain lib domain)
  let state ← manager.states[position]?
  some (position, state)

def getRoute (manager : RouteManager) (domain : String) : Option Route :=
  (manager.find lib domain).map fun found => found.2.route

def checkBasicAuth (manager : RouteManager) (domain : String) (authorization : Option String) :
    BasicAuthCheck :=
  match manager.find lib domain with
  | none => .notRequired
  | some (position, state) =>
      if state.route.basicAuth.isNone then .notRequired
      else match authorization.map Text.trim with
        | none => .denied
        | some header =>
            if header ∈ state.authCache then .allowed
            else match parseBasicAuthorization lib header with
              | none => .denied
              | some (username, password) => .verify ⟨position, header, username, password⟩

/-- `PendingBasicAuth::verify`. It writes into the state it was issued for. -/
def verify (manager : RouteManager) (pending : PendingBasicAuth) : Bool × RouteManager :=
  match manager.states[pending.state]? with
  | none => (true, manager)
  | some state =>
      match state.route.basicAuth with
      | none => (true, manager)
      | some expected =>
          if verifyBasicCredentials lib pending.username pending.password expected then
            let states := manager.states.set pending.state (state.cacheHeader pending.header)
            (true, { manager with states })
          else (false, manager)

end RouteManager

structure Session where
  manager : RouteManager
  issued : List PendingBasicAuth

def Session.new : Session := ⟨.new, []⟩

def BasicAuthCheck.pending : BasicAuthCheck → List PendingBasicAuth
  | .verify pending => [pending]
  | _ => []

/-- One call. A verification is used up when it runs. -/
inductive Step : Session → Session → Prop
  | addRoute (session : Session) (route : Route) :
      Step session { session with manager := session.manager.addRoute lib route }
  | removeRoute (session : Session) (domain : String) :
      Step session { session with manager := session.manager.removeRoute lib domain }
  | checkBasicAuth (session : Session) (domain : String) (authorization : Option String) :
      Step session { session with
        issued := (session.manager.checkBasicAuth lib domain authorization).pending ++
          session.issued }
  | verify (session : Session) (pending : PendingBasicAuth) (issued : pending ∈ session.issued) :
      Step session
        ⟨(session.manager.verify lib pending).2, session.issued.erase pending⟩

abbrev Reachable (session : Session) : Prop :=
  Relation.ReflTransGen (Step lib) Session.new session

structure RouteState.Sound (state : RouteState) : Prop where
  verified : ∀ header ∈ state.authCache, ∃ expected, state.route.basicAuth = some expected ∧
    HeaderVerifies lib header expected
  bounded : state.authCache.card ≤ maxAuthCacheEntries

structure PendingBasicAuth.Sound (pending : PendingBasicAuth) (manager : RouteManager) : Prop where
  parsed : parseBasicAuthorization lib pending.header = some (pending.username, pending.password)
  present : pending.state < manager.states.length

structure Session.Sound (session : Session) : Prop where
  states : ∀ state ∈ session.manager.states, state.Sound lib
  routed : ∀ domain position, session.manager.routes.get domain = some position →
    position < session.manager.states.length
  issued : ∀ pending ∈ session.issued, pending.Sound lib session.manager

variable {lib}

theorem fresh_state_sound (route : Route) : RouteState.Sound lib ⟨route, ∅⟩ where
  verified := by simp
  bounded := by simp

theorem cache_header_card (state : RouteState) (header : String)
    (bounded : state.authCache.card ≤ maxAuthCacheEntries) :
    (state.cacheHeader header).authCache.card ≤ maxAuthCacheEntries := by
  unfold RouteState.cacheHeader
  have grown := Finset.card_insert_le header
    (if maxAuthCacheEntries ≤ state.authCache.card then ∅ else state.authCache)
  split_ifs at grown with full
  · have room : 0 + 1 ≤ maxAuthCacheEntries := by decide
    rw [Finset.card_empty] at grown
    simp only [if_pos full]
    omega
  · simp only [if_neg full]
    omega

variable {state : RouteState}

theorem mem_cache_header {header other : String}
    (member : other ∈ (state.cacheHeader header).authCache) :
    other = header ∨ other ∈ state.authCache := by
  unfold RouteState.cacheHeader at member
  have inserted := Finset.mem_insert.mp member
  split_ifs at inserted
  · cases inserted with
    | inl same => exact .inl same
    | inr impossible => cases impossible
  · exact inserted

theorem cache_header_sound {header : String} {expected : BasicAuth} (sound : state.Sound lib)
    (required : state.route.basicAuth = some expected)
    (verifies : HeaderVerifies lib header expected) : (state.cacheHeader header).Sound lib where
  verified := by
    intro other member
    cases mem_cache_header member with
    | inl same =>
        rw [same]
        exact ⟨expected, required, verifies⟩
    | inr earlier => exact sound.verified other earlier
  bounded := cache_header_card state header sound.bounded

/-- What a verification does to the states: nothing, or one state caches a header that
verifies against its own basic auth. -/
theorem verify_cases (manager : RouteManager) (pending : PendingBasicAuth) :
    (manager.verify lib pending).2 = manager ∨
      ∃ state expected, manager.states[pending.state]? = some state ∧
        state.route.basicAuth = some expected ∧
        verifyBasicCredentials lib pending.username pending.password expected = true ∧
        (manager.verify lib pending).2 =
          ⟨manager.states.set pending.state (state.cacheHeader pending.header),
            manager.routes⟩ := by
  unfold RouteManager.verify
  cases found : manager.states[pending.state]? with
  | none => exact .inl rfl
  | some state =>
      cases required : state.route.basicAuth with
      | none => simp [required]
      | some expected =>
          by_cases verifies : verifyBasicCredentials lib pending.username pending.password expected
          · right
            exact ⟨state, expected, rfl, required, verifies, by simp [required, verifies]⟩
          · left
            simp [required, verifies]

theorem verify_length (manager : RouteManager) (pending : PendingBasicAuth) :
    (manager.verify lib pending).2.states.length = manager.states.length := by
  cases @verify_cases lib manager pending with
  | inl same => rw [same]
  | inr written =>
      obtain ⟨state, expected, -, -, -, after⟩ := written
      rw [after, List.length_set]

theorem verify_routes (manager : RouteManager) (pending : PendingBasicAuth) :
    (manager.verify lib pending).2.routes = manager.routes := by
  cases @verify_cases lib manager pending with
  | inl same => rw [same]
  | inr written =>
      obtain ⟨state, expected, -, -, -, after⟩ := written
      rw [after]

variable {manager : RouteManager}

theorem verify_states_sound {pending : PendingBasicAuth}
    (sound : ∀ state ∈ manager.states, state.Sound lib) (issued : pending.Sound lib manager) :
    ∀ state ∈ (manager.verify lib pending).2.states, state.Sound lib := by
  intro other member
  cases @verify_cases lib manager pending with
  | inl same =>
      rw [same] at member
      exact sound other member
  | inr written =>
      obtain ⟨state, expected, found, required, verifies, after⟩ := written
      rw [after] at member
      have stateSound := sound state (List.mem_of_getElem? found)
      cases List.mem_or_eq_of_mem_set member with
      | inl earlier => exact sound other earlier
      | inr same =>
          rw [same]
          exact cache_header_sound stateSound required ⟨_, _, issued.parsed, verifies⟩

variable {domain : String}

/-- A check issues a verification of the header it was given, for the state the domain
leads to. -/
theorem check_pending_sound {authorization : Option String} {pending : PendingBasicAuth}
    (member : pending ∈ (manager.checkBasicAuth lib domain authorization).pending) :
    pending.Sound lib manager := by
  unfold RouteManager.checkBasicAuth at member
  cases found : manager.find lib domain with
  | none => simp [found, BasicAuthCheck.pending] at member
  | some entry =>
      obtain ⟨position, state⟩ := entry
      have present : manager.states[position]? = some state := by
        simp only [RouteManager.find, Option.bind_eq_bind, Option.bind_eq_some_iff] at found
        obtain ⟨other, -, third, isState, same⟩ := found
        cases same
        exact isState
      simp only [found] at member
      split_ifs at member with unguarded
      · simp [BasicAuthCheck.pending] at member
      · cases given : authorization.map Text.trim with
        | none => simp [given, BasicAuthCheck.pending] at member
        | some header =>
            simp only [given] at member
            split_ifs at member with cached
            · simp [BasicAuthCheck.pending] at member
            · cases parsed : parseBasicAuthorization lib header with
              | none => simp [parsed, BasicAuthCheck.pending] at member
              | some credentials =>
                  have same : pending = ⟨position, header, credentials.1, credentials.2⟩ := by
                    simpa [parsed, BasicAuthCheck.pending] using member
                  rw [same]
                  exact ⟨parsed, (List.getElem?_eq_some_iff.mp present).1⟩

theorem step_sound {before after : Session} (step : Step lib before after)
    (sound : before.Sound lib) : after.Sound lib := by
  cases step with
  | addRoute route =>
      have grown : (before.manager.addRoute lib route).states.length =
          before.manager.states.length + 1 := by
        simp [RouteManager.addRoute]
      constructor
      · intro state member
        cases List.mem_append.mp member with
        | inl earlier => exact sound.states state earlier
        | inr fresh =>
            rw [List.mem_singleton.mp fresh]
            exact fresh_state_sound _
      · intro domain position leads
        rw [grown]
        have inserted : (if domain = normalizeDomain lib route.domain then
            some before.manager.states.length else before.manager.routes.get domain) =
              some position := by
          rw [← Map.get_insert]
          exact leads
        split_ifs at inserted
        · have same := Option.some.inj inserted
          omega
        · have earlier := sound.routed domain position inserted
          omega
      · intro pending member
        have earlier := sound.issued pending member
        have present := earlier.present
        exact ⟨earlier.parsed, by rw [grown]; omega⟩
  | removeRoute domain =>
      constructor
      · exact sound.states
      · intro other position leads
        have removed : (if other = normalizeDomain lib domain then none
            else before.manager.routes.get other) = some position := by
          rw [← Map.get_remove]
          exact leads
        split_ifs at removed
        exact sound.routed other position removed
      · intro pending member
        have earlier := sound.issued pending member
        exact ⟨earlier.parsed, earlier.present⟩
  | checkBasicAuth domain authorization =>
      constructor
      · exact sound.states
      · exact sound.routed
      · intro pending member
        cases List.mem_append.mp member with
        | inl fresh => exact check_pending_sound fresh
        | inr earlier => exact sound.issued pending earlier
  | verify pending issued =>
      constructor
      · exact verify_states_sound sound.states (sound.issued pending issued)
      · intro domain position leads
        rw [verify_routes] at leads
        rw [verify_length]
        exact sound.routed domain position leads
      · intro other member
        have earlier := sound.issued other (List.mem_of_mem_erase member)
        have present := earlier.present
        rw [← @verify_length lib before.manager pending] at present
        exact ⟨earlier.parsed, present⟩

theorem reachable_sound {session : Session} (reached : Reachable lib session) :
    session.Sound lib := by
  induction reached with
  | refl =>
      constructor
      · intro state member
        cases member
      · intro domain position leads
        cases leads
      · intro pending member
        cases member
  | tail _ step ih => exact step_sound step ih

/-- A check answers `allowed` only for a header in the cache of the state that the domain
leads to. -/
theorem check_allowed {authorization : Option String}
    (allowed : manager.checkBasicAuth lib domain authorization = .allowed) :
    ∃ position state header, manager.find lib domain = some (position, state) ∧
      authorization = some header ∧ Text.trim header ∈ state.authCache := by
  unfold RouteManager.checkBasicAuth at allowed
  cases found : manager.find lib domain with
  | none => simp [found] at allowed
  | some entry =>
      obtain ⟨position, state⟩ := entry
      simp only [found] at allowed
      split_ifs at allowed
      cases authorization with
      | none => simp at allowed
      | some header =>
          simp only [Option.map_some] at allowed
          split_ifs at allowed with cached
          · exact ⟨position, state, header, rfl, rfl, cached⟩
          · cases parsed : parseBasicAuthorization lib (Text.trim header) with
            | none => simp [parsed] at allowed
            | some credentials => simp [parsed] at allowed

theorem find_mem {position : Nat} (found : manager.find lib domain = some (position, state)) :
    state ∈ manager.states := by
  simp only [RouteManager.find, Option.bind_eq_bind, Option.bind_eq_some_iff] at found
  obtain ⟨other, -, third, isState, same⟩ := found
  cases same
  exact List.mem_of_getElem? isState

/-- A header that is allowed parses to credentials that verify against the basic auth of
the route that the domain leads to now, and no cache outgrows its bound. -/
theorem auth_cache_sound {session : Session} (reached : Reachable lib session) :
    (∀ domain authorization,
      session.manager.checkBasicAuth lib domain authorization = .allowed →
        ∃ header route expected, authorization = some header ∧
          session.manager.getRoute lib domain = some route ∧
          route.basicAuth = some expected ∧ HeaderVerifies lib header expected) ∧
      ∀ state ∈ session.manager.states, state.authCache.card ≤ maxAuthCacheEntries := by
  have sound := reachable_sound reached
  constructor
  · intro domain authorization allowed
    obtain ⟨position, state, header, found, given, cached⟩ := check_allowed allowed
    have stateSound := sound.states state (find_mem found)
    obtain ⟨expected, required, verifies⟩ := stateSound.verified _ cached
    have stored : session.manager.getRoute lib domain = some state.route := by
      simp [RouteManager.getRoute, found]
    exact ⟨header, state.route, expected, given, stored, required,
      (header_verifies_trimmed header expected).mp verifies⟩
  · intro state member
    exact (sound.states state member).bounded

def shopLibraries : Libraries :=
  { plainLibraries with
    decodeBase64 := fun text => if text = "YWRtaW46czNjcmV0" then some "admin:s3cret" else none
    verifyPassword := fun password hash => password = "s3cret" && hash = "$argon2id$s3cret" }

def guardedRoute : Route where
  domain := "shop.example.com"
  appId := none
  serviceId := none
  upstreams := []
  sslEnabled := true
  algorithm := .roundRobin
  basicAuth := some ⟨"admin", "$argon2id$s3cret"⟩
  loginGate := none

def guardedManager : RouteManager := RouteManager.new.addRoute shopLibraries guardedRoute

def adminHeader : String := "Basic YWRtaW46czNjcmV0"

def adminPending : PendingBasicAuth := ⟨0, adminHeader, "admin", "s3cret"⟩

/-- The administrator's header was checked and then verified. -/
def signedIn : Session := ⟨(guardedManager.verify shopLibraries adminPending).2, []⟩

theorem signed_in_reachable : Reachable shopLibraries signedIn := by
  have added : Step shopLibraries Session.new ⟨guardedManager, []⟩ :=
    .addRoute Session.new guardedRoute
  have checked : Step shopLibraries ⟨guardedManager, []⟩ ⟨guardedManager, [adminPending]⟩ := by
    have issued : (guardedManager.checkBasicAuth shopLibraries "shop.example.com"
        (some adminHeader)).pending = [adminPending] := by
      decide +kernel
    have step := @Step.checkBasicAuth shopLibraries ⟨guardedManager, []⟩ "shop.example.com"
      (some adminHeader)
    rw [issued] at step
    exact step
  have verified : Step shopLibraries ⟨guardedManager, [adminPending]⟩ signedIn := by
    have step := @Step.verify shopLibraries ⟨guardedManager, [adminPending]⟩ adminPending
      (List.mem_singleton_self _)
    rw [List.erase_cons_head] at step
    exact step
  exact ((Relation.ReflTransGen.single added).tail checked).tail verified

theorem auth_cache_sound_signed_in : ∃ header route expected,
    some (" " ++ adminHeader) = some header ∧
      signedIn.manager.getRoute shopLibraries "SHOP.example.com." = some route ∧
      route.basicAuth = some expected ∧ HeaderVerifies shopLibraries header expected := by
  have allowed : signedIn.manager.checkBasicAuth shopLibraries "SHOP.example.com."
      (some (" " ++ adminHeader)) = .allowed := by
    decide +kernel
  exact (auth_cache_sound signed_in_reachable).1 _ _ allowed

end Containr.Proxy.Shared
