import Containr.Effect.Map
import Containr.Models

/-!
# `containr-proxy/src/routes.rs`

The route table of the proxy. A `RouteState` is shared by reference: `version`
tells the states apart that were installed for one domain one after the other. The
structure says that each upstream has a counter and that the cache holds only
authorization headers that verified against the state's own basic auth. Lower-casing of
Unicode text, base64 and argon2 are parameters.
-/

namespace Containr.Proxy

open Containr.Effect

structure GateClaims where
  sub : Uuid
  host : String
  kind : String
  iat : Time
  exp : Time
deriving DecidableEq, Repr

/-- What the proxy calls of the standard library's Unicode tables and of other crates. -/
structure Libraries where
  toLowercase : String → String
  /-- `STANDARD.decode` and then `String::from_utf8`. -/
  decodeBase64 : String → Option String
  /-- `Argon2::default().verify_password`. -/
  verifyPassword : (password hash : String) → Bool
  /-- `jsonwebtoken::decode` with HS256 and a leeway of 5 seconds. -/
  decodeToken : (secret token : String) → Time → Option GateClaims
  /-- `jsonwebtoken::encode` with HS256. -/
  encodeToken : (secret : String) → GateClaims → Option String
  /-- `url::form_urlencoded::parse`. -/
  parseQuery : String → List (String × String)
  /-- `url::Url::parse` and then `append_pair` for each pair. -/
  urlWithPairs : String → List (String × String) → Option String

inductive LoadBalanceAlgorithm where
  | roundRobin | leastConnections
deriving DecidableEq, Repr

structure RouteLoginGate where
  ownerId : Uuid
  scope : LoginGateScope
deriving DecidableEq, Repr

structure Upstream where
  host : String
  port : Nat
deriving DecidableEq, Repr

structure Route where
  domain : String
  appId : Option Uuid
  serviceId : Option Uuid
  upstreams : List Upstream
  sslEnabled : Bool
  algorithm : LoadBalanceAlgorithm
  basicAuth : Option BasicAuth
  loginGate : Option RouteLoginGate
deriving DecidableEq, Repr

variable {lib : Libraries}

def parseBasicAuthorization (lib : Libraries) (header : String) : Option (String × String) := do
  let (scheme, encoded) ← Text.splitOnce ' ' (Text.trim header)
  if !Text.eqIgnoreAsciiCase scheme "basic" then none
  else
    let decoded ← lib.decodeBase64 (Text.trim encoded)
    Text.splitOnce ':' decoded

def verifyBasicCredentials (lib : Libraries) (username password : String) (expected : BasicAuth) :
    Bool :=
  username = expected.username && lib.verifyPassword password expected.passwordHash

def HeaderVerifies (lib : Libraries) (header : String) (expected : BasicAuth) : Prop :=
  ∃ username password, parseBasicAuthorization lib header = some (username, password) ∧
    verifyBasicCredentials lib username password expected = true

structure RouteState (lib : Libraries) where
  route : Route
  inflight : List Nat
  rrCursor : Nat
  authCache : List String
  version : Nat
  counted : inflight.length = route.upstreams.length
  verified : ∀ header ∈ authCache, ∃ expected, route.basicAuth = some expected ∧
    HeaderVerifies lib header expected

def maxAuthCacheEntries : Nat := 64

/-- `cache.insert` after a verification; a full cache is cleared first. -/
def RouteState.cacheHeader (state : RouteState lib) (header : String)
    (verifies : ∃ expected, state.route.basicAuth = some expected ∧
      HeaderVerifies lib header expected) : RouteState lib :=
  let kept := if maxAuthCacheEntries ≤ state.authCache.length then [] else state.authCache
  { state with
    authCache := kept.insert header
    verified := by
      intro other member
      rcases List.mem_insert_iff.mp member with same | earlier
      · rw [same]
        exact verifies
      · apply state.verified
        dsimp only [kept] at earlier
        split_ifs at earlier
        · cases earlier
        · exact earlier }

structure Table (lib : Libraries) where
  routes : Map String (RouteState lib)
  nextVersion : Nat

structure SelectedUpstream (lib : Libraries) where
  state : RouteState lib
  index : Nat

/-- Credentials that parsed and wait for their verification. -/
structure PendingBasicAuth (lib : Libraries) where
  state : RouteState lib
  header : String
  username : String
  password : String
  parsed : parseBasicAuthorization lib header = some (username, password)

inductive BasicAuthCheck (lib : Libraries) where
  | notRequired | allowed | denied
  | verify (pending : PendingBasicAuth lib)

def normalizeDomain (lib : Libraries) (domain : String) : String :=
  lib.toLowercase (Text.trimEndMatches (Text.trim domain) '.')

namespace Table

def find (table : Table lib) (domain : String) : Option (RouteState lib) :=
  table.routes.get (normalizeDomain lib domain)

def addRoute (table : Table lib) (route : Route) : Table lib where
  routes := table.routes.insert (normalizeDomain lib route.domain) {
    route := { route with domain := normalizeDomain lib route.domain }
    inflight := route.upstreams.map fun _ => 0
    rrCursor := 0
    authCache := []
    version := table.nextVersion
    counted := List.length_map _
    verified := by simp }
  nextVersion := table.nextVersion + 1

def removeRoute (table : Table lib) (domain : String) : Table lib :=
  { table with routes := table.routes.remove (normalizeDomain lib domain) }

def view (table : Table lib) (key : String) : Option Route :=
  (table.routes.get key).map RouteState.route

def getRoute (table : Table lib) (domain : String) : Option Route :=
  (table.find domain).map RouteState.route

def listRoutes (table : Table lib) : List Route :=
  table.routes.entries.map fun entry => entry.2.route

def leastStep (best : Nat × Nat × Nat) (value : Nat) : Nat × Nat × Nat :=
  if value < best.2.1 then (best.1 + 1, value, best.1) else (best.1 + 1, best.2.1, best.2.2)

def leastIndex : List Nat → Nat
  | [] => 0
  | first :: rest => (rest.foldl leastStep (1, first, 0)).2.2

def chosenIndex (state : RouteState lib) : Nat :=
  match state.route.algorithm with
  | .roundRobin => state.rrCursor % state.route.upstreams.length
  | .leastConnections => leastIndex state.inflight

def moveCounters (state : RouteState lib) : RouteState lib :=
  { state with
    rrCursor := match state.route.algorithm with
      | .roundRobin => (state.rrCursor + 1) % 2 ^ 64
      | .leastConnections => state.rrCursor
    inflight := state.inflight.modify (chosenIndex state) fun count => (count + 1) % 2 ^ 64
    counted := (List.length_modify _ _ _).trans state.counted }

def selectUpstream (table : Table lib) (domain : String) :
    Option (SelectedUpstream lib) × Table lib :=
  match table.find domain with
  | none => (none, table)
  | some state =>
      if state.route.upstreams.isEmpty then (none, table)
      else
        let moved := table.routes.insert (normalizeDomain lib domain) (moveCounters state)
        (some ⟨state, chosenIndex state⟩, { table with routes := moved })

/-- Credentials that are not cached are verified later, if they parse. -/
def pendingCheck (state : RouteState lib) (header : String) : BasicAuthCheck lib :=
  match parsed : parseBasicAuthorization lib header with
  | none => .denied
  | some (username, password) => .verify ⟨state, header, username, password, parsed⟩

/-- The header is looked up and verified without the blanks around it. -/
def checkBasicAuth (table : Table lib) (domain : String) (authorization : Option String) :
    BasicAuthCheck lib :=
  match table.find domain with
  | none => .notRequired
  | some state =>
      if state.route.basicAuth.isNone then .notRequired
      else match authorization.map Text.trim with
        | none => .denied
        | some header =>
            if state.authCache.contains header then .allowed else pendingCheck state header

/-- Caches the header on the state it was checked against, if that is still in place. -/
def remember (table : Table lib) (pending : PendingBasicAuth lib) (expected : BasicAuth)
    (verifies : verifyBasicCredentials lib pending.username pending.password expected = true) :
    Table lib :=
  match table.routes.get pending.state.route.domain with
  | none => table
  | some state =>
      if same : state.version = pending.state.version ∧ state.route.basicAuth = some expected then
        let cached := state.cacheHeader pending.header
          ⟨expected, same.2, pending.username, pending.password, pending.parsed, verifies⟩
        { table with routes := table.routes.insert pending.state.route.domain cached }
      else table

/-- `PendingBasicAuth::verify`. -/
def verify (table : Table lib) (pending : PendingBasicAuth lib) : Bool × Table lib :=
  match pending.state.route.basicAuth with
  | none => (true, table)
  | some expected =>
      if verifies : verifyBasicCredentials lib pending.username pending.password expected = true then
        (true, table.remember pending expected verifies)
      else (false, table)

variable (table : Table lib) (domain : String)

theorem get_route_eq_view : table.getRoute domain = table.view (normalizeDomain lib domain) := rfl

theorem mem_list_routes {table : Table lib} {route : Route} :
    route ∈ table.listRoutes ↔ ∃ key, table.view key = some route := by
  unfold listRoutes view
  constructor
  · intro member
    obtain ⟨⟨key, state⟩, inEntries, isRoute⟩ := List.mem_map.mp member
    refine ⟨key, ?_⟩
    rw [Map.get_eq_some.mpr inEntries, Option.map_some, isRoute]
  · rintro ⟨key, found⟩
    obtain ⟨state, isState, isRoute⟩ := Option.map_eq_some_iff.mp found
    exact List.mem_map.mpr ⟨(key, state), Map.get_eq_some.mp isState, isRoute⟩

theorem view_add_route (route : Route) :
    (table.addRoute route).view = Function.update table.view (normalizeDomain lib route.domain)
      (some { route with domain := normalizeDomain lib route.domain }) := by
  funext key
  unfold addRoute view
  rw [Map.get_insert, Function.update_apply]
  split_ifs
  · rfl
  · rfl

theorem view_remove_route : (table.removeRoute domain).view =
      Function.update table.view (normalizeDomain lib domain) none := by
  funext key
  unfold removeRoute view
  rw [Map.get_remove, Function.update_apply]
  split_ifs
  · rfl
  · rfl

theorem view_insert {key : String} {old new : RouteState lib}
    (found : table.routes.get key = some old) (same : new.route = old.route) :
    ({ table with routes := table.routes.insert key new } : Table lib).view = table.view := by
  funext other
  unfold view
  rw [Map.get_insert]
  split_ifs with isKey
  · rw [isKey, found, Option.map_some, Option.map_some, same]
  · rfl

theorem view_remember (pending : PendingBasicAuth lib) (expected : BasicAuth)
    (verifies : verifyBasicCredentials lib pending.username pending.password expected = true) :
    (table.remember pending expected verifies).view = table.view := by
  unfold remember
  cases found : table.routes.get pending.state.route.domain with
  | none => rfl
  | some state =>
      dsimp only
      split_ifs with same
      · exact view_insert table found rfl
      · rfl

theorem view_verify (pending : PendingBasicAuth lib) :
    (table.verify pending).2.view = table.view := by
  unfold verify
  cases pending.state.route.basicAuth with
  | none => rfl
  | some expected =>
      dsimp only
      split_ifs with verifies
      · exact view_remember table pending expected verifies
      · rfl

theorem view_select_upstream : (table.selectUpstream domain).2.view = table.view := by
  unfold selectUpstream
  cases found : table.find domain with
  | none => rfl
  | some state =>
      dsimp only
      split_ifs
      · rfl
      · exact view_insert table found rfl

end Table

end Containr.Proxy
