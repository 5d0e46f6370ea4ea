import Containr.Proxy.Admission
import Containr.Proxy.Hosts

/-!
# What the spelling of a host decides

A decision is an outcome without the addresses in its headers. It depends on the host in
four places: whether it is one of the two managed hosts, whether it has a certificate,
which route it leads to and whether the visitor's gate token is for it. Two spellings that
lead to one route are compared place by place.
-/

namespace Containr.Proxy

open Containr.Effect

variable {lib : Libraries}

inductive Decision (lib : Libraries) where
  | forward (selection : SelectedUpstream lib)
  | forwardTo (address : String) (tls : Bool)
  | answer (status : Nat) (body : String)
  | failed

def Outcome.decision : Outcome lib → Decision lib
  | .forward selection => .forward selection
  | .forwardTo address tls => .forwardTo address tls
  | .respond response => .answer response.status response.body
  | .failed _ => .failed

/-- What `request_filter` decides about a request. -/
def ContainrProxy.decision (proxy : ContainrProxy lib) (request : Request) : Decision lib :=
  (proxy.execute (requestFilter lib request)).1.decision

/-- What it decides once the host is read. -/
def ContainrProxy.served (proxy : ContainrProxy lib) (host : String) (request : Request) :
    Decision lib :=
  (proxy.execute (serveRequest proxy.config host request)).1.decision

def Request.withoutHost (request : Request) : Request :=
  { request with
    authority := none
    headers := request.headers.filter fun header => header.1 ≠ "host" }

section WithoutHost

variable (request : Request)

theorem header_without_host {name : String} (other : name ≠ "host") :
    request.withoutHost.header name = request.header name := by
  have found : (request.headers.filter fun header => header.1 ≠ "host").find?
      (fun header => header.1 = name) = request.headers.find? fun header => header.1 = name := by
    rw [List.find?_filter]
    apply congrArg (fun check => List.find? check request.headers)
    funext header
    by_cases isName : header.1 = name
    · simp [isName, other]
    · simp [isName]
  unfold Request.header Request.withoutHost
  rw [found]

theorem cookie_value_without_host (name : String) :
    cookieValue request.withoutHost name = cookieValue request name := by
  have kept : (request.headers.filter fun header => header.1 ≠ "host").filter
      (fun header => header.1 = "cookie") =
        request.headers.filter fun header => header.1 = "cookie" := by
    rw [List.filter_filter]
    apply List.filter_congr
    intro header _
    by_cases isCookie : header.1 = "cookie"
    · simp [isCookie]
    · simp [isCookie]
  unfold cookieValue Request.withoutHost
  rw [kept]

theorem is_navigation_without_host : isNavigation request.withoutHost = isNavigation request := by
  have kept : ((request.headers.filter fun header => header.1 ≠ "host").any
      fun header => header.1 = "upgrade") =
        request.headers.any fun header => header.1 = "upgrade" := by
    rw [List.any_filter]
    apply congrArg (fun check => List.any request.headers check)
    funext header
    by_cases isUpgrade : header.1 = "upgrade"
    · simp [isUpgrade]
    · simp [isUpgrade]
  unfold isNavigation Request.withoutHost
  rw [kept]

theorem enforce_login_gate_without_host (host : String) (gate : RouteLoginGate) :
    (enforceLoginGate host request.withoutHost gate : Prog lib _) =
      enforceLoginGate host request gate := by
  unfold enforceLoginGate askForLogin
  simp only [cookie_value_without_host, is_navigation_without_host]
  rfl

theorem basic_auth_allowed_without_host (host : String) :
    (basicAuthAllowed host request.withoutHost : Prog lib _) = basicAuthAllowed host request := by
  have same : request.withoutHost.header "authorization" = request.header "authorization" :=
    header_without_host request (by decide)
  unfold basicAuthAllowed
  rw [same]
  apply congrArg (Program.bind _)
  funext check
  cases check with
  | notRequired => rfl
  | allowed => rfl
  | denied => rfl
  | verify pending => rfl

theorem route_request_without_host (host : String) :
    (routeRequest host request.withoutHost : Prog lib _) = routeRequest host request := by
  unfold routeRequest authenticate
  simp only [enforce_login_gate_without_host, basic_auth_allowed_without_host]

/-- What is served depends on the host that was read and on the rest of the request. -/
theorem served_without_host (proxy : ContainrProxy lib) (host : String) :
    proxy.served host request.withoutHost = proxy.served host request := by
  unfold ContainrProxy.served serveRequest dispatch
  simp only [route_request_without_host]
  rfl

end WithoutHost

section Stages

variable (proxy : ContainrProxy lib)

def ContainrProxy.challengeAnswer (path : String) : Option Response :=
  (challengeToken path).bind fun token => (proxy.challenges.get token).map (textResponse 200)

theorem execute_serve_challenge (path : String) :
    proxy.execute (serveChallenge path) = (proxy.challengeAnswer path, proxy) := by
  unfold serveChallenge ContainrProxy.challengeAnswer
  cases challengeToken path with
  | none => rfl
  | some token => rfl

theorem challenge_answer_iff (request : Request) :
    proxy.challengeAnswer request.path = none ↔ ¬NamesActiveChallenge proxy request := by
  unfold ContainrProxy.challengeAnswer NamesActiveChallenge
  cases challengeToken request.path with
  | none => simp
  | some token =>
      cases active : proxy.challenges.get token with
      | none => simp [active]
      | some keyAuth => simp [active]

theorem decision_eq (request : Request) : proxy.decision request =
    match proxy.challengeAnswer request.path with
    | some response => .answer response.status response.body
    | none => proxy.served (request.host lib) request := by
  unfold ContainrProxy.decision requestFilter
  rw [execute_bind, execute_ask]
  dsimp only [ContainrProxy.answer]
  rw [execute_bind, execute_serve_challenge]
  cases proxy.challengeAnswer request.path with
  | none => rfl
  | some response => rfl

/-- `https_required`. -/
def ContainrProxy.needsHttps (host : String) : Bool :=
  !host.isEmpty && (managedHost lib proxy.config host ||
    (proxy.table.getRoute host).any Route.sslEnabled)

theorem execute_https_required (host : String) :
    proxy.execute (httpsRequired proxy.config host) = (proxy.needsHttps host, proxy) := by
  unfold httpsRequired ContainrProxy.needsHttps
  cases host.isEmpty with
  | true => rfl
  | false =>
      cases managedHost lib proxy.config host with
      | true => rfl
      | false =>
          simp only [Bool.false_eq_true, if_false, execute_bind, execute_ask, execute_pure,
            ContainrProxy.answer]
          rfl

def insecureDecision (certified : Bool) : Decision lib :=
  if certified then .answer 308 ""
  else .answer 426 "https required; certificate provisioning in progress"

def managedUpstream (lib : Libraries) (config : ProxyConfig) (host : String) :
    Option (String × Bool) :=
  if host = normalizeHostname lib config.baseDomain then some (config.apiUpstream, false)
  else parseStorageManagementUpstream config.managementEndpoint

def managedDecision (upstream : Option (String × Bool)) : Decision lib :=
  match upstream with
  | some (address, tls) => .forwardTo address tls
  | none => .answer 503 "storage proxy is not configured"

def ContainrProxy.routed (host : String) (request : Request) : Decision lib :=
  (proxy.execute (routeRequest host request)).1.decision

theorem served_eq (host : String) (request : Request) : proxy.served host request =
    if !request.tls && proxy.needsHttps host then insecureDecision (proxy.hasCertificate host)
    else if managedHost lib proxy.config host then
      managedDecision (managedUpstream lib proxy.config host)
    else proxy.routed host request := by
  unfold ContainrProxy.served serveRequest
  rw [execute_bind, execute_https_required]
  dsimp only
  split_ifs with refused managed
  · unfold refuseHttp
    rw [execute_bind, execute_ask, execute_pure]
    dsimp only [ContainrProxy.answer]
    unfold insecureResponse insecureDecision
    cases proxy.hasCertificate host with
    | true => rfl
    | false => rfl
  · unfold dispatch managedUpstream
    by_cases dashboard : host = normalizeHostname lib proxy.config.baseDomain
    · rw [if_pos dashboard, if_pos dashboard]
      rfl
    · have storage : storagePublicHostname lib proxy.config = some host := by
        simpa [managedHost, dashboard] using managed
      rw [if_neg dashboard, if_neg dashboard, if_pos storage, execute_pure]
      cases parseStorageManagementUpstream proxy.config.managementEndpoint with
      | none => rfl
      | some upstream => rfl
  · have app : host ≠ normalizeHostname lib proxy.config.baseDomain ∧
        storagePublicHostname lib proxy.config ≠ some host := by
      simpa [managedHost] using managed
    unfold dispatch ContainrProxy.routed
    rw [if_neg app.1, if_neg app.2]

end Stages

section Routed

variable (proxy : ContainrProxy lib) (host other : String) (request : Request)

def ContainrProxy.gateEnters (gate : RouteLoginGate) : Bool :=
  ((if request.path = gateCallbackPath then proxy.passUser host request
    else proxy.sessionUser host request).filter (proxy.allows gate)).isSome

/-- What the crates do for any input: a token is signed, and pairs do not decide whether an
address is one. -/
structure Dependable (lib : Libraries) : Prop where
  signs : ∀ secret claims, (lib.encodeToken secret claims).isSome = true
  parses : ∀ address pairs others,
    (lib.urlWithPairs address pairs).isSome = (lib.urlWithPairs address others).isSome

def gateRefusal : Decision lib :=
  .answer 403 "this login link expired or isn't yours; open the service again"

/-- What a visitor without a session is told. -/
def loginDecision (config : ProxyConfig) (host : String) (request : Request) : Decision lib :=
  (askForLogin config host request : Outcome lib).decision

theorem login_decision_same (dependable : Dependable lib) (config : ProxyConfig) :
    (loginDecision config host request : Decision lib) = loginDecision config other request := by
  unfold loginDecision askForLogin
  by_cases navigation : isNavigation request = true
  · have both := dependable.parses ((if request.tls then "https" else "http") ++ "://" ++
      config.baseDomain ++ portSuffix (if request.tls then "https" else "http")
        (if request.tls then config.httpsPort else config.httpPort) ++ "/gate")
      [("host", host), ("return", request.pathAndQuery.getD "/")]
      [("host", other), ("return", request.pathAndQuery.getD "/")]
    have parses : (loginUrl lib config host request).isSome =
        (loginUrl lib config other request).isSome := both
    simp only [navigation, Bool.not_true, Bool.false_eq_true, if_false]
    cases first : loginUrl lib config host request with
    | none =>
        cases second : loginUrl lib config other request with
        | none => rfl
        | some location => simp [first, second] at parses
    | some location =>
        cases second : loginUrl lib config other request with
        | none => simp [first, second] at parses
        | some location => rfl
  · simp [navigation]

/-- What is decided once nothing stops the request. -/
def ContainrProxy.forwarded : Decision lib := (proxy.execute (forwardRoute host)).1.decision

theorem routed_missing (missing : proxy.table.getRoute host = none) :
    proxy.routed host request = .answer 404 "no route found" := by
  unfold ContainrProxy.routed routeRequest
  rw [execute_bind, execute_ask]
  dsimp only [ContainrProxy.answer]
  rw [missing]
  rfl

theorem routed_gated (dependable : Dependable lib) {route : Route} {gate : RouteLoginGate}
    (found : proxy.table.getRoute host = some route) (gated : route.loginGate = some gate) :
    proxy.routed host request =
      if request.path = gateCallbackPath then
        if proxy.gateEnters host request gate then .answer 303 "" else gateRefusal
      else if proxy.gateEnters host request gate then proxy.forwarded host
      else loginDecision proxy.config host request := by
  unfold ContainrProxy.routed routeRequest authenticate ContainrProxy.gateEnters
  rw [execute_bind, execute_ask]
  dsimp only [ContainrProxy.answer]
  rw [found]
  dsimp only
  rw [execute_bind, gated]
  dsimp only
  rw [execute_enforce_login_gate]
  dsimp only
  split_ifs with callback entered entered
  · rw [execute_exchange_pass]
    obtain ⟨user, isUser⟩ := Option.isSome_iff_exists.mp entered
    obtain ⟨token, isToken⟩ := Option.isSome_iff_exists.mp
      (dependable.signs proxy.config.jwtSecret ⟨user, Text.toAsciiLowercase host,
        GateTokenKind.session.asStr, proxy.clock, proxy.clock + GateTokenKind.session.ttl⟩)
    have issued : proxy.sessionToken host (some user) = some token := isToken
    rw [isUser, issued]
    rfl
  · rw [execute_exchange_pass]
    have nobody : (proxy.passUser host request).filter (proxy.allows gate) = none :=
      Option.not_isSome_iff_eq_none.mp entered
    rw [nobody]
    rfl
  · rfl
  · rfl

theorem routed_open {route : Route} (found : proxy.table.getRoute host = some route)
    (gateless : route.loginGate = none) : proxy.routed host request =
      if (proxy.table.basicAllowed host (request.header "authorization")).1 then
        { proxy with table := (proxy.table.basicAllowed host
          (request.header "authorization")).2 }.forwarded host
      else .answer 401 "authentication required" := by
  unfold ContainrProxy.routed routeRequest authenticate
  rw [execute_bind, execute_ask]
  dsimp only [ContainrProxy.answer]
  rw [found]
  dsimp only
  rw [execute_bind, gateless]
  dsimp only
  rw [execute_bind, execute_basic_auth_allowed]
  dsimp only
  split_ifs with allowed
  · rfl
  · rfl

end Routed

inductive Stage where
  | insecure | managed | routed
deriving DecidableEq, Repr

def answerStage (status : Nat) (body : String) : Stage :=
  if status = 308 ∨ status = 426 then .insecure
  else if body = "storage proxy is not configured" then .managed
  else .routed

def Decision.stage : Decision lib → Stage
  | .forward _ | .failed => .routed
  | .forwardTo _ _ => .managed
  | .answer status body => answerStage status body

def Decision.reached : Decision lib → Bool
  | .forward _ => true
  | .forwardTo _ _ | .failed => false
  | .answer status _ => status = 503

section Stages

variable (proxy : ContainrProxy lib) (host : String) (request : Request)

theorem answer_stage {status : Nat} {body : String} {stage : Stage}
    (isStage : answerStage status body = stage) :
    (.answer status body : Decision lib).stage = stage := isStage

theorem insecure_stage (certified : Bool) :
    (insecureDecision certified : Decision lib).stage = .insecure := by
  cases certified with
  | true => rfl
  | false => rfl

theorem insecure_inj {certified other : Bool}
    (same : (insecureDecision certified : Decision lib) = insecureDecision other) :
    certified = other := by
  cases certified with
  | true =>
      cases other with
      | true => rfl
      | false => simp [insecureDecision] at same
  | false =>
      cases other with
      | true => simp [insecureDecision] at same
      | false => rfl

theorem managed_stage (upstream : Option (String × Bool)) :
    (managedDecision upstream : Decision lib).stage = .managed := by
  cases upstream with
  | none => rfl
  | some upstream => rfl

theorem managed_inj {upstream other : Option (String × Bool)}
    (same : (managedDecision upstream : Decision lib) = managedDecision other) :
    upstream = other := by
  cases upstream with
  | none =>
      cases other with
      | none => rfl
      | some other => simp [managedDecision] at same
  | some upstream =>
      cases other with
      | none => simp [managedDecision] at same
      | some other =>
          simp only [managedDecision, Decision.forwardTo.injEq] at same
          rw [Option.some.injEq, Prod.ext_iff]
          exact same

theorem forwarded_cases : (∃ selection, proxy.forwarded host = .forward selection) ∨
    proxy.forwarded host = .answer 503 "service is mapped but has no live upstream" := by
  unfold ContainrProxy.forwarded forwardRoute
  rw [execute_bind, execute_ask, execute_pure]
  dsimp only [ContainrProxy.answer]
  cases (proxy.table.selectUpstream host).1 with
  | none => exact Or.inr rfl
  | some selection => exact Or.inl ⟨selection, rfl⟩

theorem forwarded_stage : (proxy.forwarded host).stage = .routed := by
  rcases forwarded_cases proxy host with ⟨selection, forward⟩ | dead
  · rw [forward]
    rfl
  · rw [dead]
    exact answer_stage (by decide)

theorem forwarded_reached : (proxy.forwarded host).reached = true := by
  rcases forwarded_cases proxy host with ⟨selection, forward⟩ | dead
  · rw [forward]
    rfl
  · rw [dead]
    rfl

theorem login_decision_cases (config : ProxyConfig) :
    (loginDecision config host request : Decision lib) = .answer 401 "containr login required" ∨
      (loginDecision config host request : Decision lib) = .failed ∨
      (loginDecision config host request : Decision lib) = .answer 302 "" := by
  unfold loginDecision askForLogin
  split_ifs
  · exact Or.inl rfl
  · cases loginUrl lib config host request with
    | none => exact Or.inr (Or.inl rfl)
    | some location => exact Or.inr (Or.inr rfl)

theorem login_decision_stage (config : ProxyConfig) :
    (loginDecision config host request : Decision lib).stage = .routed ∧
      (loginDecision config host request : Decision lib).reached = false := by
  rcases @login_decision_cases lib host request config with unauthorized | failed | redirect
  · rw [unauthorized]
    exact ⟨answer_stage (by decide), rfl⟩
  · rw [failed]
    exact ⟨rfl, rfl⟩
  · rw [redirect]
    exact ⟨answer_stage (by decide), rfl⟩

theorem routed_stage (dependable : Dependable lib) : (proxy.routed host request).stage = .routed := by
  cases found : proxy.table.getRoute host with
  | none =>
      rw [routed_missing proxy host request found]
      exact answer_stage (by decide)
  | some route =>
      cases gated : route.loginGate with
      | none =>
          rw [routed_open proxy host request found gated]
          split_ifs
          · exact forwarded_stage _ host
          · exact answer_stage (by decide)
      | some gate =>
          rw [routed_gated proxy host request dependable found gated]
          split_ifs
          · exact answer_stage (by decide)
          · exact answer_stage (by decide)
          · exact forwarded_stage proxy host
          · exact (login_decision_stage host request proxy.config).1

end Stages

section SameKey

variable {proxy : ContainrProxy lib} {host other : String} {request : Request}

theorem get_route_same (table : Table lib)
    (sameKey : normalizeDomain lib host = normalizeDomain lib other) :
    table.getRoute host = table.getRoute other := by
  rw [Table.get_route_eq_view, Table.get_route_eq_view, sameKey]

theorem select_upstream_same (table : Table lib)
    (sameKey : normalizeDomain lib host = normalizeDomain lib other) :
    table.selectUpstream host = table.selectUpstream other := by
  unfold Table.selectUpstream Table.find
  rw [sameKey]

theorem basic_allowed_same (table : Table lib) (authorization : Option String)
    (sameKey : normalizeDomain lib host = normalizeDomain lib other) :
    table.basicAllowed host authorization = table.basicAllowed other authorization := by
  unfold Table.basicAllowed Table.checkBasicAuth Table.find
  rw [sameKey]

theorem forwarded_same (proxy : ContainrProxy lib)
    (sameKey : normalizeDomain lib host = normalizeDomain lib other) :
    proxy.forwarded host = proxy.forwarded other := by
  unfold ContainrProxy.forwarded forwardRoute
  rw [execute_bind, execute_bind, execute_ask, execute_ask, execute_pure, execute_pure]
  dsimp only [ContainrProxy.answer]
  rw [select_upstream_same proxy.table sameKey]
  cases (proxy.table.selectUpstream other).1 with
  | none => rfl
  | some selection => rfl

theorem verified_host {secret token : String} {kind : GateTokenKind} {now : Time} {user : Uuid}
    (verified : verifyGateToken lib secret token host kind now = some user) :
    ∃ claims, lib.decodeToken secret token now = some claims ∧
      Text.toAsciiLowercase claims.host = Text.toAsciiLowercase host := by
  unfold verifyGateToken at verified
  cases decoded : lib.decodeToken secret token now with
  | none => simp [decoded] at verified
  | some claims =>
      simp only [decoded] at verified
      split_ifs at verified with wrong
      refine ⟨claims, rfl, ?_⟩
      have right : Text.eqIgnoreAsciiCase claims.host host = true := by
        by_contra different
        simp [different] at wrong
      simpa [Text.eqIgnoreAsciiCase] using right

def ContainrProxy.presented (proxy : ContainrProxy lib) (request : Request) : Option GateClaims :=
  (if request.path = gateCallbackPath then lastPair (lib.parseQuery (request.query.getD "")) "pass"
    else cookieValue request gateCookie).bind fun token =>
      lib.decodeToken proxy.config.jwtSecret token proxy.clock

variable {gate : RouteLoginGate}

theorem gate_enters_presented (enters : proxy.gateEnters host request gate = true) :
    ∃ claims, proxy.presented request = some claims ∧
      Text.toAsciiLowercase claims.host = Text.toAsciiLowercase host := by
  obtain ⟨user, entered⟩ := Option.isSome_iff_exists.mp enters
  have isUser := (Option.filter_eq_some_iff.mp entered).1
  unfold ContainrProxy.presented
  split_ifs at isUser ⊢ with callback
  · obtain ⟨token, isToken, verified⟩ := Option.bind_eq_some_iff.mp isUser
    obtain ⟨claims, decoded, sameHost⟩ := verified_host verified
    exact ⟨claims, by rw [isToken, Option.bind_some, decoded], sameHost⟩
  · obtain ⟨token, isToken, verified⟩ := Option.bind_eq_some_iff.mp isUser
    obtain ⟨claims, decoded, sameHost⟩ := verified_host verified
    exact ⟨claims, by rw [isToken, Option.bind_some, decoded], sameHost⟩

/-- One token is not for two hosts. -/
theorem gate_enters_once (apart : Text.toAsciiLowercase host ≠ Text.toAsciiLowercase other)
    (same : proxy.gateEnters host request gate = proxy.gateEnters other request gate) :
    proxy.gateEnters host request gate = false ∧ proxy.gateEnters other request gate = false := by
  cases enters : proxy.gateEnters host request gate with
  | false => exact ⟨rfl, same.symm.trans enters⟩
  | true =>
      obtain ⟨claims, presented, sameHost⟩ := gate_enters_presented enters
      obtain ⟨again, presentedAgain, sameOther⟩ := gate_enters_presented (same.symm.trans enters)
      rw [presented, Option.some.injEq] at presentedAgain
      rw [← presentedAgain, sameHost] at sameOther
      exact absurd sameOther apart

/-- A gated route tells two spellings apart exactly by letting one of them in. -/
theorem routed_gated_iff (dependable : Dependable lib) {route : Route}
    (found : proxy.table.getRoute host = some route) (gated : route.loginGate = some gate)
    (sameKey : normalizeDomain lib host = normalizeDomain lib other) :
    proxy.routed host request = proxy.routed other request ↔
      proxy.gateEnters host request gate = proxy.gateEnters other request gate := by
  have foundOther := (get_route_same proxy.table sameKey).symm.trans found
  rw [routed_gated proxy host request dependable found gated,
    routed_gated proxy other request dependable foundOther gated,
    forwarded_same proxy sameKey, login_decision_same host other request dependable proxy.config]
  have reached := forwarded_reached proxy other
  have stopped := (login_decision_stage other request proxy.config : _ ∧
    (loginDecision proxy.config other request : Decision lib).reached = false).2
  have apart : proxy.forwarded other ≠ loginDecision proxy.config other request := by
    intro same
    rw [same, stopped] at reached
    cases reached
  have refused : (.answer 303 "" : Decision lib) ≠ gateRefusal := by simp [gateRefusal]
  cases proxy.gateEnters host request gate with
  | true =>
      cases proxy.gateEnters other request gate with
      | true => simp
      | false =>
          by_cases callback : request.path = gateCallbackPath
          · simpa [callback] using refused
          · simpa [callback] using apart
  | false =>
      cases proxy.gateEnters other request gate with
      | true =>
          by_cases callback : request.path = gateCallbackPath
          · simpa [callback] using refused.symm
          · simpa [callback] using apart.symm
      | false => simp

/-- The gate of the route, if there is one, lets the visitor in under neither spelling. -/
def GateShut (proxy : ContainrProxy lib) (host other : String) (request : Request) : Prop :=
  ∀ route gate, proxy.table.getRoute host = some route → route.loginGate = some gate →
    proxy.gateEnters host request gate = false ∧ proxy.gateEnters other request gate = false

theorem routed_same_iff (dependable : Dependable lib)
    (sameKey : normalizeDomain lib host = normalizeDomain lib other)
    (apart : Text.toAsciiLowercase host ≠ Text.toAsciiLowercase other) :
    proxy.routed host request = proxy.routed other request ↔
      GateShut proxy host other request := by
  unfold GateShut
  cases found : proxy.table.getRoute host with
  | none =>
      have foundOther := (get_route_same proxy.table sameKey).symm.trans found
      rw [routed_missing proxy host request found, routed_missing proxy other request foundOther]
      simp
  | some route =>
      have foundOther := (get_route_same proxy.table sameKey).symm.trans found
      cases gated : route.loginGate with
      | none =>
          rw [routed_open proxy host request found gated,
            routed_open proxy other request foundOther gated,
            basic_allowed_same proxy.table _ sameKey, forwarded_same _ sameKey]
          apply iff_of_true rfl
          intro same gate isRoute isGate
          rw [← Option.some.inj isRoute, gated] at isGate
          cases isGate
      | some gate =>
          rw [routed_gated_iff dependable found gated sameKey]
          constructor
          · intro same route' gate' isRoute isGate
            rw [← Option.some.inj isRoute, gated] at isGate
            rw [← Option.some.inj isGate]
            exact gate_enters_once apart same
          · intro shut
            obtain ⟨closed, otherClosed⟩ := shut route gate rfl gated
            rw [closed, otherClosed]

end SameKey

/-- Nothing that differs between two spellings of a host is looked at. -/
inductive Unseen (proxy : ContainrProxy lib) (host other : String) (request : Request) : Prop where
  | challenge (named : NamesActiveChallenge proxy request)
  | insecure (plain : request.tls = false) (needs : proxy.needsHttps host = true)
      (needsOther : proxy.needsHttps other = true)
      (certified : proxy.hasCertificate host = proxy.hasCertificate other)
  | managed (secure : request.tls = true ∨
        proxy.needsHttps host = false ∧ proxy.needsHttps other = false)
      (isManaged : managedHost lib proxy.config host = true)
      (otherManaged : managedHost lib proxy.config other = true)
      (upstream : managedUpstream lib proxy.config host = managedUpstream lib proxy.config other)
  | routed (secure : request.tls = true ∨
        proxy.needsHttps host = false ∧ proxy.needsHttps other = false)
      (notManaged : managedHost lib proxy.config host = false)
      (otherNotManaged : managedHost lib proxy.config other = false)
      (shut : GateShut proxy host other request)

section Served

variable {proxy : ContainrProxy lib} {host other : String} {request : Request}

/-- What is decided about a request whose https is met. -/
def ContainrProxy.opened (proxy : ContainrProxy lib) (host : String) (request : Request) :
    Decision lib :=
  if managedHost lib proxy.config host then
    managedDecision (managedUpstream lib proxy.config host)
  else proxy.routed host request

theorem opened_stage (dependable : Dependable lib) (proxy : ContainrProxy lib) (host : String)
    (request : Request) : (proxy.opened host request).stage =
      if managedHost lib proxy.config host then .managed else .routed := by
  unfold ContainrProxy.opened
  split_ifs
  · exact managed_stage _
  · exact routed_stage proxy host request dependable

theorem opened_same_iff (dependable : Dependable lib)
    (sameKey : normalizeDomain lib host = normalizeDomain lib other)
    (apart : Text.toAsciiLowercase host ≠ Text.toAsciiLowercase other) :
    proxy.opened host request = proxy.opened other request ↔
      (managedHost lib proxy.config host = true ∧ managedHost lib proxy.config other = true ∧
        managedUpstream lib proxy.config host = managedUpstream lib proxy.config other) ∨
      (managedHost lib proxy.config host = false ∧ managedHost lib proxy.config other = false ∧
        GateShut proxy host other request) := by
  have stage := opened_stage dependable proxy host request
  have stageOther := opened_stage dependable proxy other request
  cases isManaged : managedHost lib proxy.config host with
  | true =>
      cases otherManaged : managedHost lib proxy.config other with
      | true =>
          unfold ContainrProxy.opened
          rw [if_pos isManaged, if_pos otherManaged]
          constructor
          · intro same
            exact Or.inl ⟨rfl, rfl, managed_inj same⟩
          · intro parts
            rcases parts with ⟨-, -, same⟩ | ⟨impossible, -⟩
            · rw [same]
            · cases impossible
      | false =>
          have differ : proxy.opened host request ≠ proxy.opened other request := by
            intro same
            rw [same, stageOther] at stage
            simp [isManaged, otherManaged] at stage
          simp [differ]
  | false =>
      cases otherManaged : managedHost lib proxy.config other with
      | true =>
          have differ : proxy.opened host request ≠ proxy.opened other request := by
            intro same
            rw [same, stageOther] at stage
            simp [isManaged, otherManaged] at stage
          simp [differ]
      | false =>
          have routed := @routed_same_iff lib proxy host other request dependable sameKey apart
          unfold ContainrProxy.opened
          simp [isManaged, otherManaged, routed]

theorem insecure_not_opened (dependable : Dependable lib) (certified : Bool) :
    (insecureDecision certified : Decision lib) ≠ proxy.opened host request := by
  intro same
  have stage := @insecure_stage lib certified
  rw [same, opened_stage dependable] at stage
  split_ifs at stage

theorem served_same_iff (dependable : Dependable lib)
    (sameKey : normalizeDomain lib host = normalizeDomain lib other)
    (apart : Text.toAsciiLowercase host ≠ Text.toAsciiLowercase other)
    (unnamed : ¬NamesActiveChallenge proxy request) :
    proxy.served host request = proxy.served other request ↔ Unseen proxy host other request := by
  have opened := @opened_same_iff lib proxy host other request dependable sameKey apart
  have served (host : String) : proxy.served host request =
      if !request.tls && proxy.needsHttps host then insecureDecision (proxy.hasCertificate host)
      else proxy.opened host request := served_eq proxy host request
  rw [served, served]
  by_cases refused : (!request.tls && proxy.needsHttps host) = true
  · obtain ⟨plain, needs⟩ : request.tls = false ∧ proxy.needsHttps host = true := by
      simpa using refused
    rw [if_pos refused]
    by_cases otherRefused : (!request.tls && proxy.needsHttps other) = true
    · have needsOther : proxy.needsHttps other = true := by simpa [plain] using otherRefused
      rw [if_pos otherRefused]
      constructor
      · intro same
        exact .insecure plain needs needsOther (insecure_inj same)
      · intro unseen
        cases unseen with
        | challenge named => exact absurd named unnamed
        | insecure _ _ _ certified => rw [certified]
        | managed secure => simp [plain, needs] at secure
        | routed secure => simp [plain, needs] at secure
    · have spared : proxy.needsHttps other = false := by simpa [plain] using otherRefused
      rw [if_neg otherRefused]
      apply iff_of_false (insecure_not_opened dependable _)
      intro unseen
      cases unseen with
      | challenge named => exact unnamed named
      | insecure _ _ needsOther => simp [spared] at needsOther
      | managed secure => simp [plain, needs] at secure
      | routed secure => simp [plain, needs] at secure
  · rw [if_neg refused]
    by_cases otherRefused : (!request.tls && proxy.needsHttps other) = true
    · obtain ⟨plain, needsOther⟩ : request.tls = false ∧ proxy.needsHttps other = true := by
        simpa using otherRefused
      have spared : proxy.needsHttps host = false := by simpa [plain] using refused
      rw [if_pos otherRefused]
      apply iff_of_false (insecure_not_opened dependable _).symm
      intro unseen
      cases unseen with
      | challenge named => exact unnamed named
      | insecure _ needs => simp [spared] at needs
      | managed secure => simp [plain, needsOther] at secure
      | routed secure => simp [plain, needsOther] at secure
    · rw [if_neg otherRefused, opened]
      have secure : request.tls = true ∨
          proxy.needsHttps host = false ∧ proxy.needsHttps other = false := by
        cases isTls : request.tls with
        | true => exact Or.inl rfl
        | false =>
            rw [isTls] at refused otherRefused
            exact Or.inr ⟨by simpa using refused, by simpa using otherRefused⟩
      constructor
      · intro same
        rcases same with ⟨isManaged, otherManaged, upstream⟩ | ⟨notManaged, otherNot, shut⟩
        · exact .managed secure isManaged otherManaged upstream
        · exact .routed secure notManaged otherNot shut
      · intro unseen
        cases unseen with
        | challenge named => exact absurd named unnamed
        | insecure plain needs => simp [plain, needs] at refused
        | managed _ isManaged otherManaged upstream =>
            exact Or.inl ⟨isManaged, otherManaged, upstream⟩
        | routed _ notManaged otherNot shut => exact Or.inr ⟨notManaged, otherNot, shut⟩

end Served

structure Respelled (request other : Request) (spelling respelled : Spelling) : Prop where
  sameRest : request.withoutHost = other.withoutHost
  spelled : requestAuthority request = spelling.authority
  otherSpelled : requestAuthority other = respelled.authority
  sameName : Text.eqIgnoreAsciiCase spelling.name respelled.name = true

section Respelled

variable {proxy : ContainrProxy lib} {request other : Request} {spelling respelled : Spelling}

theorem challenge_same (respells : Respelled request other spelling respelled) :
    proxy.challengeAnswer request.path = proxy.challengeAnswer other.path := by
  have path : request.withoutHost.path = other.withoutHost.path := by rw [respells.sameRest]
  exact congrArg proxy.challengeAnswer path

theorem served_respelled (respells : Respelled request other spelling respelled) (host : String) :
    proxy.served host request = proxy.served host other := by
  rw [← served_without_host request, ← served_without_host other, respells.sameRest]

theorem decision_same_host (respells : Respelled request other spelling respelled)
    (sameHost : request.host lib = other.host lib) :
    proxy.decision request = proxy.decision other := by
  rw [decision_eq, decision_eq, challenge_same respells, served_respelled respells, sameHost]

theorem host_registered (lowers : Text.LowersAscii lib.toLowercase)
    (registered : RegisteredName spelling.name) (spelled : requestAuthority request =
      spelling.authority) : request.host lib =
        Text.toAsciiLowercase spelling.name ++ spelling.dot := by
  have dot : Text.toAsciiLowercase spelling.dot = spelling.dot := by
    unfold Spelling.dot
    cases spelling.dotted with
    | false => decide
    | true => decide
  unfold Request.host
  rw [spelled, authority_hostname_registered lowers registered, Text.to_ascii_lowercase_append, dot]

theorem host_literal (lowers : Text.LowersAscii lib.toLowercase) (literal : IpLiteral spelling.name)
    (spelled : requestAuthority request = spelling.authority) :
    request.host lib = Text.toAsciiLowercase spelling.name := by
  unfold Request.host
  rw [spelled, authority_hostname_literal lowers literal]

/-- A dot at the end makes no difference to the route table. -/
theorem normalize_domain_dot {name : String} (registered : RegisteredName name)
    (spelling : Spelling) : normalizeDomain lib (Text.toAsciiLowercase name ++ spelling.dot) =
      normalizeDomain lib (Text.toAsciiLowercase name) := by
  have chars : ∀ ch ∈ (Text.toAsciiLowercase name).toList, Text.isWhitespace ch = false := by
    intro ch member
    unfold Text.toAsciiLowercase at member
    rw [String.toList_ofList] at member
    obtain ⟨before, inName, same⟩ := List.mem_map.mp member
    have range := host_char_range (List.all_eq_true.mp registered before inName)
    rw [← same, Text.is_whitespace_lower]
    unfold Text.isWhitespace
    simp
    omega
  have dotted : ∀ ch ∈ (Text.toAsciiLowercase name ++ spelling.dot).toList,
      Text.isWhitespace ch = false := by
    intro ch member
    rw [String.toList_append, List.mem_append] at member
    rcases member with inName | inDot
    · exact chars ch inName
    · rw [dot_chars spelling ch inDot]
      decide
  unfold normalizeDomain
  rw [Text.trim_plain chars, Text.trim_plain dotted]
  unfold Spelling.dot
  cases spelling.dotted with
  | false => simp
  | true =>
      have mark := Text.trim_end_matches_mark (Text.toAsciiLowercase name) '.'
      exact congrArg lib.toLowercase mark

/-- Case and port decide nothing; the dot of a name only where nothing that differs is
looked at. -/
theorem decision_respelled_iff (lowers : Text.LowersAscii lib.toLowercase)
    (dependable : Dependable lib) (respells : Respelled request other spelling respelled)
    (registered : RegisteredName spelling.name) (otherRegistered : RegisteredName respelled.name) :
    proxy.decision request = proxy.decision other ↔ spelling.dotted = respelled.dotted ∨
      Unseen proxy (request.host lib) (other.host lib) request := by
  have host := host_registered lowers registered respells.spelled
  have otherHost := host_registered lowers otherRegistered respells.otherSpelled
  have sameName : Text.toAsciiLowercase spelling.name = Text.toAsciiLowercase respelled.name := by
    simpa [Text.eqIgnoreAsciiCase] using respells.sameName
  by_cases sameDot : spelling.dotted = respelled.dotted
  · have sameHost : request.host lib = other.host lib := by
      rw [host, otherHost, sameName]
      unfold Spelling.dot
      rw [sameDot]
    exact iff_of_true (decision_same_host respells sameHost) (Or.inl sameDot)
  · rw [or_iff_right sameDot, decision_eq, decision_eq, challenge_same respells]
    have sameKey : normalizeDomain lib (request.host lib) = normalizeDomain lib (other.host lib) := by
      rw [host, otherHost, normalize_domain_dot registered, normalize_domain_dot otherRegistered,
        sameName]
    have apart : Text.toAsciiLowercase (request.host lib) ≠
        Text.toAsciiLowercase (other.host lib) := by
      intro same
      have lengths := congrArg (fun text => text.toList.length) same
      simp only [Text.to_ascii_lowercase_length] at lengths
      rw [host, otherHost, sameName, String.toList_append, String.toList_append,
        List.length_append, List.length_append] at lengths
      exact sameDot (dotted_of_length (Nat.add_left_cancel lengths))
    cases answered : proxy.challengeAnswer other.path with
    | some response =>
        have named : NamesActiveChallenge proxy request := by
          by_contra unnamed
          have silent := (challenge_answer_iff proxy request).mpr unnamed
          rw [challenge_same respells, answered] at silent
          cases silent
        exact iff_of_true rfl (.challenge named)
    | none =>
        have unnamed : ¬NamesActiveChallenge proxy request := by
          apply (challenge_answer_iff proxy request).mp
          rw [challenge_same respells, answered]
        rw [← served_respelled respells (other.host lib)]
        exact served_same_iff dependable sameKey apart unnamed

end Respelled

end Containr.Proxy
