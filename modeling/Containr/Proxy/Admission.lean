import Containr.Proxy.Filter

/-!
# Which requests the proxy forwards

The route table, the configuration and the database stand still during a request.
Each part of the handler is first given by what it returns; the decision about a
whole request is assembled from these.
-/

namespace Containr.Proxy

open Containr.Effect

variable {lib : Libraries}

def SameRoutes (first second : Table lib) : Prop :=
  ∀ domain, first.getRoute domain = second.getRoute domain

theorem same_routes_of_view {first second : Table lib} (same : first.view = second.view) :
    SameRoutes first second := by
  intro domain
  rw [Table.get_route_eq_view, Table.get_route_eq_view, same]

theorem least_scan_lt (values : List Nat) (best : Nat × Nat × Nat) (passed : best.2.2 < best.1) :
    (values.foldl Table.leastStep best).2.2 < best.1 + values.length := by
  induction values generalizing best with
  | nil => simpa using passed
  | cons value rest ih =>
      have next : (Table.leastStep best value).1 = best.1 + 1 ∧
          (Table.leastStep best value).2.2 < best.1 + 1 := by
        unfold Table.leastStep
        split_ifs
        · exact ⟨rfl, Nat.lt_succ_self _⟩
        · exact ⟨rfl, Nat.lt_succ_of_lt passed⟩
      have bound := ih (Table.leastStep best value) (by omega)
      rw [List.foldl_cons, List.length_cons]
      omega

theorem least_index_lt {values : List Nat} (nonempty : values ≠ []) :
    Table.leastIndex values < values.length := by
  cases values with
  | nil => exact absurd rfl nonempty
  | cons first rest =>
      have bound := least_scan_lt rest (1, first, 0) Nat.zero_lt_one
      rw [List.length_cons, Nat.add_comm]
      exact bound

theorem chosen_index_lt (state : RouteState lib) (nonempty : state.route.upstreams ≠ []) :
    Table.chosenIndex state < state.route.upstreams.length := by
  have positive : 0 < state.route.upstreams.length := List.length_pos_of_ne_nil nonempty
  unfold Table.chosenIndex
  cases state.route.algorithm with
  | roundRobin => exact Nat.mod_lt _ positive
  | leastConnections =>
      have counters : state.inflight ≠ [] := by
        intro empty
        have none := state.counted
        rw [empty, List.length_nil] at none
        omega
      have bound := least_index_lt counters
      rw [state.counted] at bound
      exact bound

def SelectedFrom (table : Table lib) (host : String) (selection : SelectedUpstream lib) : Prop :=
  table.getRoute host = some selection.state.route ∧
    selection.index < selection.state.route.upstreams.length

theorem select_upstream_some {table : Table lib} {host : String} {route : Route}
    (found : table.getRoute host = some route) (live : route.upstreams ≠ []) :
    ∃ selection, (table.selectUpstream host).1 = some selection ∧
      SelectedFrom table host selection := by
  unfold Table.getRoute at found
  cases entry : table.find host with
  | none => simp [entry] at found
  | some state =>
      have isRoute : state.route = route := by simpa [entry] using found
      have nonempty : state.route.upstreams ≠ [] := by
        rw [isRoute]
        exact live
      have notEmpty : state.route.upstreams.isEmpty = false := by simpa using nonempty
      refine ⟨⟨state, Table.chosenIndex state⟩, ?_, ?_⟩
      · simp [Table.selectUpstream, entry, notEmpty]
      · exact ⟨by simp [Table.getRoute, entry], chosen_index_lt state nonempty⟩

theorem select_upstream_none {table : Table lib} {host : String} {route : Route}
    (found : table.getRoute host = some route) (dead : route.upstreams = []) :
    (table.selectUpstream host).1 = none := by
  unfold Table.getRoute at found
  cases entry : table.find host with
  | none => simp [entry] at found
  | some state =>
      have isRoute : state.route = route := by simpa [entry] using found
      simp [Table.selectUpstream, entry, isRoute, dead]

/-- `gate_allows`. -/
def ContainrProxy.allows (proxy : ContainrProxy lib) (gate : RouteLoginGate) (user : Uuid) : Bool :=
  match gate.scope with
  | .owner => gate.ownerId = user
  | .allUsers => proxy.knownUser user

def ContainrProxy.sessionUser (proxy : ContainrProxy lib) (host : String) (request : Request) :
    Option Uuid :=
  (cookieValue request gateCookie).bind fun token =>
    verifyGateToken lib proxy.config.jwtSecret token host .session proxy.clock

def ContainrProxy.passUser (proxy : ContainrProxy lib) (host : String) (request : Request) :
    Option Uuid :=
  (lastPair (lib.parseQuery (request.query.getD "")) "pass").bind fun token =>
    verifyGateToken lib proxy.config.jwtSecret token host .pass proxy.clock

def GateAdmits (proxy : ContainrProxy lib) (host : String) (request : Request)
    (gate : RouteLoginGate) : Prop :=
  request.path ≠ gateCallbackPath ∧
    ∃ user, proxy.sessionUser host request = some user ∧ proxy.allows gate user = true

def BasicAuthAdmits (lib : Libraries) (request : Request) (route : Route) : Prop :=
  ∀ expected, route.basicAuth = some expected →
    ∃ header, request.header "authorization" = some header ∧ HeaderVerifies lib header expected

def PolicyAdmits (proxy : ContainrProxy lib) (host : String) (request : Request) (route : Route) :
    Prop :=
  (∃ gate, route.loginGate = some gate ∧ GateAdmits proxy host request gate) ∨
    (route.loginGate = none ∧ BasicAuthAdmits lib request route)

section Gate

variable (proxy : ContainrProxy lib)

@[simp] theorem execute_gate_allows (gate : RouteLoginGate) (user : Uuid) :
    proxy.execute (gateAllows gate user) = (proxy.allows gate user, proxy) := by
  unfold gateAllows ContainrProxy.allows
  cases gate.scope with
  | owner => rfl
  | allUsers => rfl

@[simp] theorem execute_allowed_user (gate : RouteLoginGate) (user : Option Uuid) :
    proxy.execute (allowedUser gate user) = (user.filter (proxy.allows gate), proxy) := by
  cases user with
  | none => rfl
  | some user =>
      unfold allowedUser
      rw [execute_bind, execute_gate_allows, execute_pure]
      cases allowed : proxy.allows gate user with
      | true => simp [Option.filter, allowed]
      | false => simp [Option.filter, allowed]

@[simp] theorem execute_check_token (secret host : String) (kind : GateTokenKind)
    (token : Option String) : proxy.execute (checkToken secret host kind token) =
      (token.bind fun token => verifyGateToken lib secret token host kind proxy.clock, proxy) := by
  cases token with
  | none => rfl
  | some token => rfl

def ContainrProxy.sessionToken (host : String) (user : Option Uuid) : Option String :=
  user.bind fun user =>
    issueGateToken lib proxy.config.jwtSecret user host .session proxy.clock

theorem execute_exchange_pass (host : String) (request : Request) (gate : RouteLoginGate) :
    proxy.execute (exchangePass proxy.config.jwtSecret host request gate) =
      (match proxy.sessionToken host ((proxy.passUser host request).filter (proxy.allows gate)) with
        | none => gateDenied
        | some token => gateEntered token request.tls
            (lastPair (lib.parseQuery (request.query.getD "")) "return"), proxy) := by
  unfold exchangePass
  simp only [execute_bind, execute_check_token, execute_allowed_user, execute_pure]
  unfold ContainrProxy.passUser
  generalize Option.filter _ _ = entered
  cases entered with
  | none => rfl
  | some user => rfl

theorem execute_enforce_login_gate (host : String) (request : Request) (gate : RouteLoginGate) :
    proxy.execute (enforceLoginGate host request gate) =
      (if request.path = gateCallbackPath then
        some (.respond (proxy.execute (exchangePass proxy.config.jwtSecret host request gate)).1)
      else if ((proxy.sessionUser host request).filter (proxy.allows gate)).isSome then none
      else some (askForLogin proxy.config host request), proxy) := by
  unfold enforceLoginGate
  rw [execute_bind, execute_ask]
  dsimp only [ContainrProxy.answer]
  split_ifs with callback signedIn
  · rw [execute_bind, execute_exchange_pass, execute_pure]
  · simp only [execute_bind, execute_check_token, execute_allowed_user, execute_pure]
    unfold ContainrProxy.sessionUser at signedIn
    rw [if_pos signedIn]
  · simp only [execute_bind, execute_check_token, execute_allowed_user, execute_pure]
    unfold ContainrProxy.sessionUser at signedIn
    rw [if_neg signedIn]

theorem gate_passes_iff (host : String) (request : Request) (gate : RouteLoginGate) :
    (proxy.execute (enforceLoginGate host request gate)).1 = none ↔
      GateAdmits proxy host request gate := by
  rw [execute_enforce_login_gate]
  unfold GateAdmits
  dsimp only
  split_ifs with callback signedIn
  · simp [callback]
  · rw [Option.isSome_iff_exists] at signedIn
    obtain ⟨user, isUser⟩ := signedIn
    rw [Option.filter_eq_some_iff] at isUser
    exact ⟨fun _ => ⟨callback, user, isUser⟩, fun _ => rfl⟩
  · constructor
    · intro impossible
      cases impossible
    · rintro ⟨-, user, isUser, allowed⟩
      rw [isUser] at signedIn
      simp [allowed] at signedIn

end Gate

section Basic

variable (proxy : ContainrProxy lib)

theorem parse_trimmed (header : String) :
    parseBasicAuthorization lib (Text.trim header) = parseBasicAuthorization lib header := by
  unfold parseBasicAuthorization
  rw [Text.trim_idem]

theorem header_verifies_trimmed (header : String) (expected : BasicAuth) :
    HeaderVerifies lib (Text.trim header) expected ↔ HeaderVerifies lib header expected := by
  unfold HeaderVerifies
  rw [parse_trimmed]

def Table.basicAllowed (table : Table lib) (host : String) (authorization : Option String) :
    Bool × Table lib :=
  match table.checkBasicAuth host authorization with
  | .notRequired | .allowed => (true, table)
  | .denied => (false, table)
  | .verify pending => table.verify pending

theorem execute_basic_auth_allowed (host : String) (request : Request) :
    proxy.execute (basicAuthAllowed host request) =
      ((proxy.table.basicAllowed host (request.header "authorization")).1,
        { proxy with
          table := (proxy.table.basicAllowed host (request.header "authorization")).2 }) := by
  unfold basicAuthAllowed Table.basicAllowed
  rw [execute_bind, execute_ask]
  dsimp only [ContainrProxy.answer]
  cases proxy.table.checkBasicAuth host (request.header "authorization") with
  | notRequired => rfl
  | allowed => rfl
  | denied => rfl
  | verify pending => rfl

theorem basic_allowed_same_routes (table : Table lib) (host : String)
    (authorization : Option String) :
    SameRoutes (table.basicAllowed host authorization).2 table := by
  unfold Table.basicAllowed
  cases table.checkBasicAuth host authorization with
  | notRequired => exact fun _ => rfl
  | allowed => exact fun _ => rfl
  | denied => exact fun _ => rfl
  | verify pending => exact same_routes_of_view (table.view_verify pending)

theorem verify_iff (table : Table lib) (pending : PendingBasicAuth lib) {expected : BasicAuth}
    (isExpected : pending.state.route.basicAuth = some expected) :
    (table.verify pending).1 = true ↔ HeaderVerifies lib pending.header expected := by
  unfold Table.verify HeaderVerifies
  rw [isExpected]
  dsimp only
  constructor
  · intro verified
    split_ifs at verified with verifies
    exact ⟨pending.username, pending.password, pending.parsed, verifies⟩
  · rintro ⟨username, password, parsed, verifies⟩
    rw [pending.parsed, Option.some.injEq, Prod.mk.injEq] at parsed
    rw [dif_pos (by rw [parsed.1, parsed.2]; exact verifies)]

theorem pending_check_cases (state : RouteState lib) (header : String) :
    (parseBasicAuthorization lib header = none ∧ Table.pendingCheck state header = .denied) ∨
      ∃ pending, Table.pendingCheck state header = .verify pending ∧ pending.state = state ∧
        pending.header = header := by
  unfold Table.pendingCheck
  split
  · rename_i unparsed
    exact Or.inl ⟨unparsed, rfl⟩
  · exact Or.inr ⟨_, rfl, rfl, rfl⟩

theorem basic_allowed_required {table : Table lib} {host : String} {state : RouteState lib}
    {expected : BasicAuth} (entry : table.find host = some state)
    (auth : state.route.basicAuth = some expected) (authorization : Option String) :
    (table.basicAllowed host authorization).1 = true ↔
      ∃ header, authorization = some header ∧ HeaderVerifies lib header expected := by
  unfold Table.basicAllowed Table.checkBasicAuth
  simp only [entry, auth, Option.isNone_some, Bool.false_eq_true, if_false]
  cases authorization with
  | none => simp
  | some header =>
      simp only [Option.map_some, Option.some.injEq, exists_eq_left']
      rw [← header_verifies_trimmed]
      by_cases cached : state.authCache.contains (Text.trim header) = true
      · rw [if_pos cached]
        obtain ⟨stored, isStored, verifies⟩ :=
          state.verified (Text.trim header) (by simpa using cached)
        rw [auth] at isStored
        rw [← Option.some.inj isStored] at verifies
        exact ⟨fun _ => verifies, fun _ => rfl⟩
      · rw [if_neg cached]
        rcases pending_check_cases state (Text.trim header) with
          ⟨unparsed, denied⟩ | ⟨pending, isPending, sameState, sameHeader⟩
        · rw [denied]
          simp [HeaderVerifies, unparsed]
        · rw [isPending, ← sameHeader]
          apply verify_iff
          rw [sameState]
          exact auth

theorem basic_allowed_iff (host : String) (request : Request) {route : Route}
    (found : proxy.table.getRoute host = some route) :
    (proxy.table.basicAllowed host (request.header "authorization")).1 = true ↔
      BasicAuthAdmits lib request route := by
  unfold Table.getRoute at found
  cases entry : proxy.table.find host with
  | none => simp [entry] at found
  | some state =>
      have isRoute : state.route = route := by simpa [entry] using found
      unfold BasicAuthAdmits
      rw [← isRoute]
      cases auth : state.route.basicAuth with
      | none => simp [Table.basicAllowed, Table.checkBasicAuth, entry, auth]
      | some expected =>
          rw [basic_allowed_required entry auth]
          simp

end Basic

section Requests

variable (proxy : ContainrProxy lib)

def NamesActiveChallenge (request : Request) : Prop :=
  ∃ token keyAuth, challengeToken request.path = some token ∧
    proxy.challenges.get token = some keyAuth

variable (request : Request) (host : String)

/-- Authentication passes exactly when the policy admits, and changes no route. -/
theorem authenticate_iff (request : Request) {route : Route}
    (found : proxy.table.getRoute host = some route) :
    ((proxy.execute (authenticate host request route)).1 = none ↔
      PolicyAdmits proxy host request route) ∧
    SameRoutes (proxy.execute (authenticate host request route)).2.table proxy.table := by
  unfold authenticate PolicyAdmits
  cases gated : route.loginGate with
  | some gate =>
      refine ⟨?_, ?_⟩
      · rw [gate_passes_iff]
        simp
      · rw [execute_enforce_login_gate]
        exact fun _ => rfl
  | none =>
      simp only [execute_bind, execute_basic_auth_allowed, execute_pure]
      refine ⟨?_, basic_allowed_same_routes _ _ _⟩
      have decided := basic_allowed_iff proxy host request found
      split_ifs with allowed
      · simpa using decided.mp allowed
      · have denied := fun admits => allowed (decided.mpr admits)
        simpa using denied

def Outcome.cookies : Outcome lib → List String
  | .respond response =>
      (response.headers.filter fun header => header.1 = "Set-Cookie").map Prod.snd
  | .forward _ | .forwardTo _ _ | .failed _ => []

def Outcome.forwards : Outcome lib → Bool
  | .forward _ | .forwardTo _ _ => true
  | .respond _ | .failed _ => false

structure Outcome.Refuses (outcome : Outcome lib) : Prop where
  stays : outcome.forwards = false
  plain : outcome.cookies = []

theorem ask_for_login_refuses (config : ProxyConfig) (host : String) (request : Request) :
    (askForLogin config host request : Outcome lib).Refuses := by
  unfold askForLogin
  split_ifs
  · exact ⟨rfl, by simp [Outcome.cookies, uncachedText]⟩
  · cases loginUrl lib config host request with
    | none => exact ⟨rfl, rfl⟩
    | some location => exact ⟨rfl, by simp [Outcome.cookies]⟩

def IssuedTo (proxy : ContainrProxy lib) (host : String) (request : Request)
    (gate : RouteLoginGate) (cookie : String) : Prop :=
  request.path = gateCallbackPath ∧
    ∃ user token, proxy.passUser host request = some user ∧ proxy.allows gate user = true ∧
      issueGateToken lib proxy.config.jwtSecret user host .session proxy.clock = some token ∧
      cookie = sessionCookie token request.tls

theorem authenticate_stops (host : String) (request : Request) {route : Route}
    {outcome : Outcome lib}
    (stopped : (proxy.execute (authenticate host request route)).1 = some outcome) :
    outcome.forwards = false ∧ ∀ cookie ∈ outcome.cookies, ∃ gate,
      route.loginGate = some gate ∧ IssuedTo proxy host request gate cookie := by
  unfold authenticate at stopped
  cases gated : route.loginGate with
  | none =>
      simp only [gated, execute_bind, execute_basic_auth_allowed, execute_pure] at stopped
      split_ifs at stopped
      rw [← Option.some.inj stopped]
      exact ⟨rfl, by simp [Outcome.cookies, authenticationRequired]⟩
  | some gate =>
      simp only [gated, execute_enforce_login_gate] at stopped
      split_ifs at stopped with callback signedIn
      · rw [← Option.some.inj stopped]
        refine ⟨rfl, ?_⟩
        intro cookie member
        refine ⟨gate, rfl, callback, ?_⟩
        rw [execute_exchange_pass] at member
        cases issued : proxy.sessionToken host
            ((proxy.passUser host request).filter (proxy.allows gate)) with
        | none => simp [issued, Outcome.cookies, gateDenied, uncachedText] at member
        | some token =>
            obtain ⟨user, entered, isToken⟩ := Option.bind_eq_some_iff.mp issued
            obtain ⟨isUser, allowed⟩ := Option.filter_eq_some_iff.mp entered
            have isCookie : cookie = sessionCookie token request.tls := by
              simpa [issued, Outcome.cookies, gateEntered] using member
            exact ⟨user, token, isUser, allowed, isToken, isCookie⟩
      · have refuses := @ask_for_login_refuses lib proxy.config host request
        rw [← Option.some.inj stopped]
        refine ⟨refuses.stays, ?_⟩
        intro cookie member
        rw [refuses.plain] at member
        cases member

theorem route_request_forwards_iff (request : Request) :
    (∃ selection after, proxy.execute (routeRequest host request) = (.forward selection, after) ∧
      SelectedFrom proxy.table host selection) ↔
    ∃ route, proxy.table.getRoute host = some route ∧ route.upstreams ≠ [] ∧
      PolicyAdmits proxy host request route := by
  unfold routeRequest
  rw [execute_bind, execute_ask]
  dsimp only [ContainrProxy.answer]
  cases found : proxy.table.getRoute host with
  | none => simp
  | some route =>
      obtain ⟨decided, same⟩ := authenticate_iff proxy host request found
      simp only [execute_bind, Option.some.injEq, exists_eq_left']
      cases stopped : (proxy.execute (authenticate host request route)).1 with
      | some outcome =>
          have refused := (authenticate_stops proxy host request stopped).1
          rw [stopped] at decided
          constructor
          · rintro ⟨selection, after, isForward, -⟩
            have isOutcome : outcome = .forward selection := congrArg Prod.fst isForward
            rw [isOutcome] at refused
            cases refused
          · rintro ⟨-, admitted⟩
            have impossible := decided.mpr admitted
            cases impossible
      | none =>
          have admitted := decided.mp stopped
          have foundStill : (proxy.execute (authenticate host request route)).2.table.getRoute host =
              some route := (same host).trans found
          unfold forwardRoute
          simp only [execute_bind, execute_ask, execute_pure, ContainrProxy.answer]
          by_cases live : route.upstreams = []
          · rw [select_upstream_none foundStill live]
            simp [live]
          · obtain ⟨selection, isSelected, source⟩ := select_upstream_some foundStill live
            rw [isSelected]
            refine ⟨fun _ => ⟨live, admitted⟩, fun _ => ⟨selection, _, rfl, ?_⟩⟩
            exact ⟨(same host).symm.trans source.1, source.2⟩

theorem route_request_cookies (request : Request) (cookie : String)
    (member : cookie ∈ (proxy.execute (routeRequest host request)).1.cookies) :
    ∃ route gate, proxy.table.getRoute host = some route ∧ route.loginGate = some gate ∧
      IssuedTo proxy host request gate cookie := by
  unfold routeRequest at member
  rw [execute_bind, execute_ask] at member
  dsimp only [ContainrProxy.answer] at member
  cases found : proxy.table.getRoute host with
  | none => simp [found, Outcome.cookies, textResponse] at member
  | some route =>
      simp only [found, execute_bind] at member
      cases stopped : (proxy.execute (authenticate host request route)).1 with
      | some outcome =>
          simp only [stopped, execute_pure] at member
          obtain ⟨gate, gated, issued⟩ :=
            (authenticate_stops proxy host request stopped).2 cookie member
          exact ⟨route, gate, rfl, gated, issued⟩
      | none =>
          simp only [stopped, forwardRoute, execute_bind, execute_ask, execute_pure] at member
          split at member
          · cases member
          · simp [Outcome.cookies, textResponse] at member

structure AppHost (config : ProxyConfig) (host : String) : Prop where
  notDashboard : host ≠ normalizeHostname lib config.baseDomain
  notStorage : storagePublicHostname lib config ≠ some host

def requiresHttps (host : String) : Bool :=
  !host.isEmpty && (proxy.table.getRoute host).any Route.sslEnabled

theorem execute_serve_request {host : String} (appHost : @AppHost lib proxy.config host) :
    (proxy.execute (serveRequest proxy.config host request)) =
      if !request.tls && requiresHttps proxy host then proxy.execute (refuseHttp host request)
      else proxy.execute (routeRequest host request) := by
  have notManaged : managedHost lib proxy.config host = false := by
    simp [managedHost, appHost.notDashboard, appHost.notStorage]
  have required : proxy.execute (httpsRequired proxy.config host) =
      (requiresHttps proxy host, proxy) := by
    unfold httpsRequired requiresHttps
    cases host.isEmpty with
    | true => rfl
    | false =>
        simp only [notManaged, Bool.false_eq_true, if_false, execute_bind, execute_ask,
          execute_pure, ContainrProxy.answer]
        rfl
  unfold serveRequest
  rw [execute_bind, required]
  dsimp only
  split_ifs with refused
  · rfl
  · unfold dispatch
    rw [if_neg appHost.notDashboard, if_neg appHost.notStorage]

theorem refuse_http_refuses (request : Request) :
    (proxy.execute (refuseHttp host request)).1.Refuses := by
  unfold refuseHttp
  rw [execute_bind, execute_ask, execute_pure]
  dsimp only [ContainrProxy.answer]
  unfold insecureResponse
  cases proxy.hasCertificate host with
  | true => exact ⟨rfl, by simp [Outcome.cookies]⟩
  | false => exact ⟨rfl, by simp [Outcome.cookies, textResponse]⟩

theorem execute_request_filter : (NamesActiveChallenge proxy request ∧
        (proxy.execute (requestFilter lib request)).1.Refuses) ∨
      (¬NamesActiveChallenge proxy request ∧ proxy.execute (requestFilter lib request) =
        proxy.execute (serveRequest proxy.config (request.host lib) request)) := by
  unfold requestFilter NamesActiveChallenge
  simp only [execute_bind, execute_ask, ContainrProxy.answer]
  unfold serveChallenge
  cases named : challengeToken request.path with
  | none =>
      right
      simp
  | some token =>
      simp only [execute_bind, execute_ask, execute_pure, ContainrProxy.answer]
      cases active : proxy.challenges.get token with
      | none =>
          right
          simp [active]
      | some keyAuth =>
          left
          exact ⟨⟨token, keyAuth, rfl, active⟩, rfl, by simp [Outcome.cookies, textResponse]⟩

/-- A forwarded request has no active challenge, a live route whose https it meets
and a policy that admits it; and conversely. -/
theorem request_filter_forwards_iff (appHost : @AppHost lib proxy.config (request.host lib)) :
    (∃ selection after, proxy.execute (requestFilter lib request) = (.forward selection, after) ∧
      SelectedFrom proxy.table (request.host lib) selection) ↔
    ¬NamesActiveChallenge proxy request ∧
      ∃ route, proxy.table.getRoute (request.host lib) = some route ∧ route.upstreams ≠ [] ∧
        (request.tls = true ∨ request.host lib = "" ∨ route.sslEnabled = false) ∧
        PolicyAdmits proxy (request.host lib) request route := by
  rcases execute_request_filter proxy request with ⟨named, refuses⟩ | ⟨unnamed, served⟩
  · constructor
    · rintro ⟨selection, after, forwarded, -⟩
      have stays := refuses.stays
      rw [forwarded] at stays
      cases stays
    · rintro ⟨unnamed, -⟩
      exact absurd named unnamed
  · rw [served, execute_serve_request proxy request appHost]
    split_ifs with refused
    · constructor
      · rintro ⟨selection, after, forwarded, -⟩
        have stays := (refuse_http_refuses proxy (request.host lib) request).stays
        rw [forwarded] at stays
        cases stays
      · rintro ⟨-, route, found, -, scheme, -⟩
        simp only [requiresHttps, found, Option.any_some, Bool.and_eq_true, Bool.not_eq_true',
          String.isEmpty_eq_false_iff] at refused
        rcases scheme with tls | empty | plain
        · simp [tls] at refused
        · exact absurd empty refused.2.1
        · simp [plain] at refused
    · rw [route_request_forwards_iff]
      constructor
      · rintro ⟨route, found, live, admitted⟩
        refine ⟨unnamed, route, found, live, ?_, admitted⟩
        by_contra insecure
        apply refused
        simp only [not_or, Bool.not_eq_true] at insecure
        simp [requiresHttps, found, insecure.1, insecure.2.1, insecure.2.2]
      · rintro ⟨-, route, found, live, -, admitted⟩
        exact ⟨route, found, live, admitted⟩

/-- Only a callback with a pass sets a cookie. -/
theorem request_filter_cookies (appHost : @AppHost lib proxy.config (request.host lib))
    (cookie : String) (member : cookie ∈ (proxy.execute (requestFilter lib request)).1.cookies) :
    ∃ route gate, proxy.table.getRoute (request.host lib) = some route ∧
      route.loginGate = some gate ∧ IssuedTo proxy (request.host lib) request gate cookie := by
  rcases execute_request_filter proxy request with ⟨-, refuses⟩ | ⟨-, served⟩
  · rw [refuses.plain] at member
    cases member
  · rw [served, execute_serve_request proxy request appHost] at member
    split_ifs at member
    · rw [(refuse_http_refuses proxy (request.host lib) request).plain] at member
      cases member
    · exact route_request_cookies proxy (request.host lib) request cookie member

end Requests

/-- The proxy forwards a request to an upstream of its host's route exactly when no
active challenge is named, the route is live, https is met (an empty host has none to
meet) and the route's policy admits it; session cookies go to holders of a pass. -/
theorem proxy_admission (lib : Libraries) (proxy : ContainrProxy lib) (request : Request)
    (notDashboard : request.host lib ≠ normalizeHostname lib proxy.config.baseDomain)
    (notStorage : storagePublicHostname lib proxy.config ≠ some (request.host lib)) :
    ((∃ selection after,
        proxy.execute (requestFilter lib request) = (.forward selection, after) ∧
        SelectedFrom proxy.table (request.host lib) selection) ↔
      ¬NamesActiveChallenge proxy request ∧
        ∃ route, proxy.table.getRoute (request.host lib) = some route ∧ route.upstreams ≠ [] ∧
          (request.tls = true ∨ request.host lib = "" ∨ route.sslEnabled = false) ∧
          PolicyAdmits proxy (request.host lib) request route) ∧
    ∀ cookie ∈ (proxy.execute (requestFilter lib request)).1.cookies,
      ∃ route gate, proxy.table.getRoute (request.host lib) = some route ∧
        route.loginGate = some gate ∧ IssuedTo proxy (request.host lib) request gate cookie :=
  ⟨request_filter_forwards_iff proxy request ⟨notDashboard, notStorage⟩,
    request_filter_cookies proxy request ⟨notDashboard, notStorage⟩⟩

/-! A proxy with one route; no credentials are in play. -/

def plainLibraries : Libraries where
  toLowercase := Text.toAsciiLowercase
  decodeBase64 _ := none
  verifyPassword _ _ := false
  decodeToken _ _ _ := none
  encodeToken _ _ := none
  parseQuery _ := []
  urlWithPairs text _ := some text

def demoConfig : ProxyConfig where
  jwtSecret := "secret"
  baseDomain := "panel.example.com"
  httpPort := 80
  httpsPort := 443
  rustfsPublicHostname := none
  managementEndpoint := ""
  apiUpstream := "127.0.0.1:2077"

def demoRoute (domain : String) (sslEnabled : Bool) : Route where
  domain := domain
  appId := some ⟨1⟩
  serviceId := some ⟨2⟩
  upstreams := [⟨"10.0.0.2", 80⟩]
  sslEnabled := sslEnabled
  algorithm := .roundRobin
  basicAuth := none
  loginGate := none

def demoProxyWith (lib : Libraries) (route : Route) : ContainrProxy lib where
  table := Table.addRoute ⟨Map.empty, 0⟩ route
  config := demoConfig
  challenges := Map.empty
  clock := 0
  knownUser _ := false
  hasCertificate _ := false
  loadApp _ := .ok none
  listDeployments _ := .ok []
  listContainers _ := .ok []
  networksOf _ := none
  loadedId := by
    intro id app loaded
    cases Except.ok.inj loaded
  newestFirst := by
    intro appId deployments listed
    rw [← Except.ok.inj listed]
    exact List.Pairwise.nil

def demoProxy : Route → ContainrProxy plainLibraries := demoProxyWith plainLibraries

def demoRequest (host : Option String) : Request where
  method := "GET"
  authority := none
  path := "/"
  query := none
  pathAndQuery := some "/"
  headers := host.toList.map fun host => ("host", some host)
  tls := false

theorem proxy_admission_plain : ∃ selection after,
    (demoProxy (demoRoute "app.example.com" false)).execute
        (requestFilter plainLibraries (demoRequest (some "App.example.com:80"))) =
      (.forward selection, after) ∧
    SelectedFrom (demoProxy (demoRoute "app.example.com" false)).table
      ((demoRequest (some "App.example.com:80")).host plainLibraries) selection := by
  have admission := (proxy_admission plainLibraries (demoProxy (demoRoute "app.example.com" false))
    (demoRequest (some "App.example.com:80")) (by decide +kernel) (by decide +kernel)).1
  apply admission.mpr
  refine ⟨?_, { demoRoute "app.example.com" false with domain := "app.example.com" },
    by decide +kernel, by decide, Or.inr (Or.inr rfl), Or.inr ⟨rfl, ?_⟩⟩
  · rintro ⟨token, keyAuth, -, active⟩
    cases active
  · intro expected required
    cases required

/-- A request without a host reaches the route of the empty domain over http,
although that route asks for https. -/
theorem empty_host_forwarded_over_http :
    (∃ selection after,
      (demoProxy (demoRoute "." true)).execute (requestFilter plainLibraries (demoRequest none)) =
        (.forward selection, after) ∧
      SelectedFrom (demoProxy (demoRoute "." true)).table
        ((demoRequest none).host plainLibraries) selection) ∧
    ¬(¬NamesActiveChallenge (demoProxy (demoRoute "." true)) (demoRequest none) ∧
      ∃ route, (demoProxy (demoRoute "." true)).table.getRoute
          ((demoRequest none).host plainLibraries) = some route ∧ route.upstreams ≠ [] ∧
        ((demoRequest none).tls = true ∨ route.sslEnabled = false) ∧
        PolicyAdmits (demoProxy (demoRoute "." true)) ((demoRequest none).host plainLibraries)
          (demoRequest none) route) := by
  have emptyHost : (demoRequest none).host plainLibraries = "" := by decide +kernel
  have found : (demoProxy (demoRoute "." true)).table.getRoute
      ((demoRequest none).host plainLibraries) =
        some { demoRoute "." true with domain := "" } := by decide +kernel
  constructor
  · apply (request_filter_forwards_iff _ _ ⟨by decide +kernel, by decide +kernel⟩).mpr
    refine ⟨?_, _, found, by decide, Or.inr (Or.inl emptyHost), Or.inr ⟨rfl, ?_⟩⟩
    · rintro ⟨token, keyAuth, -, active⟩
      cases active
    · intro expected required
      cases required
  · rintro ⟨-, route, isRoute, -, insecure, -⟩
    rw [found] at isRoute
    rw [← Option.some.inj isRoute] at insecure
    rcases insecure with tls | plain
    · cases tls
    · cases plain

end Containr.Proxy
