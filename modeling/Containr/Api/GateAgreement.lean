import Containr.Api.GatePass
import Containr.Proxy.HostDecisions
import Containr.Proxy.Isolation

/-!
# The dashboard's gate and the proxy's gate

The dashboard finds the gated service of a host among the stored apps; the proxy looks the
host up in the table that the refreshes of these apps left behind. Each has its own domains
and its own spelling of a host.
-/

namespace Containr.Api.GatePass

open Containr.Effect Containr.Effect.Program Containr.Proxy

variable {lib : Libraries}

/-- What the handler reads. -/
structure Dashboard where
  config : ProxyConfig
  apps : List App
  session : (token secret : String) → Except String Uuid
  user : Uuid → Option Auth.User
  clock : Time

namespace Dashboard

variable (dashboard : Dashboard)

def answers : (op : GateOp) → op.Answer
  | .readConfig => dashboard.config
  | .validateToken token secret => dashboard.session token secret
  | .listApps => .ok dashboard.apps
  | .getUser id => .ok (dashboard.user id)
  | .utcNow => dashboard.clock

def pass (lib : Libraries) (authorization : Auth.Authorization) (request : GatePassRequest) :
    Except ApiError String :=
  (createGatePass lib authorization request).run.evaluate dashboard.answers

def signedIn (authorization : Auth.Authorization) : Option Uuid :=
  (authorization.bind fun header => Text.stripFront header "Bearer ").bind fun token =>
    (dashboard.session token dashboard.config.jwtSecret).toOption

/-- `target_allows`, for the stored users. -/
def allows (target : GatedTarget) (user : Uuid) : Bool :=
  match target.scope with
  | .owner => target.ownerId = user
  | .allUsers => (dashboard.user user).isSome

end Dashboard

theorem evaluate_ok_bind {Value Other : Type} {oracle : (op : GateOp) → op.Answer}
    {handler : GateHandler Value} (value : Value) (next : Value → GateHandler Other)
    (answered : handler.run.evaluate oracle = .ok value) :
    (handler >>= next).run.evaluate oracle = (next value).run.evaluate oracle := by
  change (handler.run.bind _).evaluate oracle = _
  rw [evaluate_bind, answered]
  rfl

theorem evaluate_target_allows (dashboard : Dashboard) (target : GatedTarget) (user : Uuid) :
    (targetAllows target user).run.evaluate dashboard.answers =
      .ok (dashboard.allows target user) := by
  unfold targetAllows Dashboard.allows
  cases target.scope with
  | owner => rfl
  | allUsers => rfl

def Dashboard.issued (dashboard : Dashboard) (lib : Libraries) (user : Uuid) (target : GatedTarget)
    (request : GatePassRequest) : Option String :=
  (issueGateToken lib dashboard.config.jwtSecret user (normalizeHost request.host) .pass
    dashboard.clock).bind fun token => redirectUrl lib target token request.returnTo

theorem evaluate_issue_pass (dashboard : Dashboard) (user : Uuid) (target : GatedTarget)
    (request : GatePassRequest) :
    (issuePass lib dashboard.config user target (normalizeHost request.host)
        request.returnTo).run.evaluate dashboard.answers =
      (dashboard.issued lib user target request).elim (.error internalError) .ok := by
  unfold issuePass Dashboard.issued
  refine (evaluate_ok_bind dashboard.clock _ rfl).trans ?_
  cases signed : issueGateToken lib dashboard.config.jwtSecret user (normalizeHost request.host)
      .pass dashboard.clock with
  | none => rfl
  | some token =>
      simp only [Option.bind_some]
      cases redirectUrl lib target token request.returnTo with
      | none => rfl
      | some url => rfl

section SignedIn

variable {dashboard : Dashboard} {authorization : Auth.Authorization} {user : Uuid}
  (signedIn : dashboard.signedIn authorization = some user)

include signedIn

theorem evaluate_user_id :
    (getUserId authorization).run.evaluate dashboard.answers = .ok user := by
  obtain ⟨token, bearer, session⟩ := Option.bind_eq_some_iff.mp signedIn
  have answer : dashboard.answers (.validateToken token dashboard.config.jwtSecret) =
      Except.ok user := by
    change dashboard.session token dashboard.config.jwtSecret = Except.ok user
    cases validated : dashboard.session token dashboard.config.jwtSecret with
    | error message =>
        rw [validated] at session
        cases session
    | ok id =>
        rw [validated] at session
        rw [Option.some.inj session]
  unfold getUserId
  refine (evaluate_ok_bind dashboard.config _ rfl).trans ?_
  simp only [bearer]
  refine (evaluate_ok_bind (dashboard.answers _) _ rfl).trans ?_
  simp only [answer]
  rfl

theorem pass_missing (lib : Libraries) {request : GatePassRequest}
    (missing : findGatedTarget dashboard.apps dashboard.config (normalizeHost request.host) =
      none) :
    dashboard.pass lib authorization request =
      .error ⟨404, "this domain has no containr login"⟩ := by
  refine (evaluate_ok_bind user _ (evaluate_user_id signedIn)).trans ?_
  refine (evaluate_ok_bind dashboard.config _ rfl).trans ?_
  refine (evaluate_ok_bind dashboard.apps _ rfl).trans ?_
  simp only [missing]
  rfl

theorem pass_found (lib : Libraries) {request : GatePassRequest} {target : GatedTarget}
    (found : findGatedTarget dashboard.apps dashboard.config (normalizeHost request.host) =
      some target) :
    dashboard.pass lib authorization request = if dashboard.allows target user then
      (dashboard.issued lib user target request).elim (.error internalError) .ok
      else .error ⟨403, "only the owner of this service can open it"⟩ := by
  refine (evaluate_ok_bind user _ (evaluate_user_id signedIn)).trans ?_
  refine (evaluate_ok_bind dashboard.config _ rfl).trans ?_
  refine (evaluate_ok_bind dashboard.apps _ rfl).trans ?_
  simp only [found]
  refine (evaluate_ok_bind _ _ (evaluate_target_allows dashboard target user)).trans ?_
  cases dashboard.allows target user with
  | false => rfl
  | true => exact evaluate_issue_pass dashboard user target request

theorem pass_iff (lib : Libraries) (request : GatePassRequest) (url : String) :
    dashboard.pass lib authorization request = .ok url ↔
      ∃ target, findGatedTarget dashboard.apps dashboard.config (normalizeHost request.host) =
          some target ∧ dashboard.allows target user = true ∧
        dashboard.issued lib user target request = some url := by
  cases found : findGatedTarget dashboard.apps dashboard.config (normalizeHost request.host) with
  | none =>
      rw [pass_missing signedIn lib found]
      simp
  | some target =>
      rw [pass_found signedIn lib found]
      cases allowed : dashboard.allows target user with
      | false => simp [allowed]
      | true =>
          cases issued : dashboard.issued lib user target request with
          | none => simp [allowed, issued]
          | some address => simp [allowed, issued]

end SignedIn

def namedDomains (service : ContainerService) (baseDomain : String) : List String :=
  service.customDomains ++ (defaultServiceDomain service.id baseDomain).toList

/-- The first of them that is the host, up to the case of ASCII letters and trailing dots. -/
def spelling (service : ContainerService) (baseDomain host : String) : Option String :=
  (namedDomains service baseDomain).find? fun domain => normalizeHost domain = host

def originOf (config : ProxyConfig) (https : Bool) (host : String) : String :=
  let scheme := if https then "https" else "http"
  let port := if https then config.httpsPort else config.httpPort
  scheme ++ "://" ++ host ++ portSuffix scheme port

theorem served_over_https_eq (config : ProxyConfig) (host : String) (service : ContainerService) :
    servedOverHttps config host service =
      (spelling service config.baseDomain host).map service.domainHttpsEnabled := by
  unfold servedOverHttps spelling namedDomains
  rw [List.find?_append]
  cases custom : service.customDomains.find? fun domain => normalizeHost domain = host with
  | some domain => rfl
  | none =>
      cases generated : defaultServiceDomain service.id config.baseDomain with
      | none => rfl
      | some domain =>
          by_cases isHost : normalizeHost domain = host
          · -- the generated domain is none of the custom ones, so https is off for it
            have other : domain ∉ service.customDomains := by
              intro member
              have missed := List.find?_eq_none.mp custom domain member
              simp [isHost] at missed
            have plain : service.domainHttpsEnabled domain = false := by
              unfold ContainerService.domainHttpsEnabled ContainerService.httpsDomains
              simp [other]
            simp [isHost, plain]
          · simp [isHost]

structure Serves (config : ProxyConfig) (host : String) (app : App) (service : ContainerService)
    (target : GatedTarget) : Prop where
  isPublic : service.isPublicHttp = true
  found : ∃ gate domain, service.loginGate = some gate ∧
    spelling service config.baseDomain host = some domain ∧
    target = ⟨app.ownerId, gate.scope, originOf config (service.domainHttpsEnabled domain) host⟩

theorem gated_target_iff (config : ProxyConfig) (host : String) (app : App)
    (service : ContainerService) (target : GatedTarget) :
    gatedTarget config host app service = some target ↔
      Serves config host app service target := by
  unfold gatedTarget
  rw [served_over_https_eq]
  cases gated : service.loginGate with
  | none =>
      constructor
      · intro found
        cases found
      · intro serves
        obtain ⟨gate, domain, isGate, -, -⟩ := serves.found
        rw [gated] at isGate
        cases isGate
  | some gate =>
      cases isPublic : service.isPublicHttp with
      | false =>
          constructor
          · intro found
            simp at found
          · intro serves
            have required := serves.isPublic
            rw [isPublic] at required
            cases required
      | true =>
          cases spelled : spelling service config.baseDomain host with
          | none =>
              constructor
              · intro found
                simp at found
              · intro serves
                obtain ⟨gate, domain, -, isDomain, -⟩ := serves.found
                rw [spelled] at isDomain
                cases isDomain
          | some domain =>
              constructor
              · intro found
                simp only [Option.bind_some, Bool.not_true, Bool.false_eq_true, if_false,
                  Option.map_some, Option.some.injEq] at found
                exact ⟨isPublic, gate, domain, gated, spelled, found.symm⟩
              · intro serves
                obtain ⟨other, named, isOther, isNamed, isTarget⟩ := serves.found
                rw [gated] at isOther
                rw [spelled] at isNamed
                rw [isTarget, ← Option.some.inj isOther, ← Option.some.inj isNamed]
                simp [originOf]

variable {target : GatedTarget} {config : ProxyConfig}

theorem find_gated_target_some {apps : List App} {host : String}
    (found : findGatedTarget apps config host = some target) :
    ∃ app ∈ apps, ∃ service ∈ app.services, Serves config host app service target := by
  obtain ⟨app, inApps, inApp⟩ := List.exists_of_findSome?_eq_some found
  obtain ⟨service, inServices, isTarget⟩ := List.exists_of_findSome?_eq_some inApp
  exact ⟨app, inApps, service, inServices, (gated_target_iff _ _ _ _ _).mp isTarget⟩

theorem find_gated_target_isSome {apps : List App} {host : String} {app : App} (inApps : app ∈ apps)
    {service : ContainerService} (inServices : service ∈ app.services)
    (serves : Serves config host app service target) :
    ∃ other, findGatedTarget apps config host = some other := by
  apply Option.isSome_iff_exists.mp
  apply List.findSome?_isSome_iff.mpr
  refine ⟨app, inApps, List.findSome?_isSome_iff.mpr ⟨service, inServices, ?_⟩⟩
  rw [(gated_target_iff _ _ _ _ _).mpr serves]
  rfl

def appRoutes (algorithm : LoadBalanceAlgorithm) (baseDomain : String)
    (upstreams : ContainerService → List Upstream) (app : App) : List Route :=
  (publicDomains app baseDomain).map fun pair =>
    serviceRoute app algorithm pair.1 (upstreams pair.1) pair.2

def ShowsApp (lib : Libraries) (baseDomain : String) (view : View) (app : App) : Prop :=
  ∃ algorithm upstreams, install lib (appRoutes algorithm baseDomain upstreams app) view = view

structure HoldsRoutes (lib : Libraries) (baseDomain : String) (apps : List App) (view : View) :
    Prop where
  shown : ∀ app ∈ apps, ShowsApp lib baseDomain view app
  gates : ∀ key route gate, view key = some route → route.loginGate = some gate →
    ∃ app ∈ apps, ∃ pair ∈ publicDomains app baseDomain, Proxy.normalizeDomain lib pair.2 = key

theorem install_again (routes : List Route) (view : View) :
    install lib routes (install lib routes view) = install lib routes view := by
  funext key
  rw [install_eq_last, install_eq_last routes view]
  cases routes.reverse.find? fun route => Proxy.normalizeDomain lib route.domain = key with
  | none => rfl
  | some route => rfl

theorem view_add_routes (routes : List Route) (table : Table lib) :
    (routes.foldl Table.addRoute table).view = install lib routes table.view := by
  induction routes generalizing table with
  | nil => rfl
  | cons route rest ih =>
      rw [List.foldl_cons, ih, Table.view_add_route]
      rfl

/-- A refresh that goes through leaves a table with the routes of its app. -/
theorem refresh_shows_app {start final : ContainrProxy lib} {algorithm : LoadBalanceAlgorithm}
    {baseDomain : String} {appId : Uuid} {app : App} {containers : List (Option (List String))}
    (loaded : start.loadApp appId = .ok (some app))
    (listed : start.listContainers ("containr-" ++ app.id.toString) = .ok containers)
    (run : Runs (serving lib).can (refreshRoutesForApp lib algorithm baseDomain appId) start ()
      final) : ShowsApp lib baseDomain final.table.view app := by
  have after : final.table.view = refreshed start algorithm baseDomain appId :=
    ((ensures_refresh start algorithm baseDomain appId).runs run).view
  have routes : ∃ upstreams, start.adds algorithm baseDomain appId =
      appRoutes algorithm baseDomain upstreams app :=
    ⟨fun service => start.upstreamsOf app
      (servesService app (latestRunning (start.listDeployments app.id)) service)
      (runtimeService app (latestRunning (start.listDeployments app.id)) service).port
      (containerNames containers), adds_eq loaded listed⟩
  obtain ⟨upstreams, isAdds⟩ := routes
  refine ⟨algorithm, upstreams, ?_⟩
  rw [after]
  unfold refreshed
  rw [isAdds]
  exact install_again _ _

def routedPair (lib : Libraries) (baseDomain : String) (app : App) (host : String) :
    Option (ContainerService × String) :=
  (publicDomains app baseDomain).reverse.find? fun pair =>
    Proxy.normalizeDomain lib pair.2 = Proxy.normalizeDomain lib host

section Table

variable {baseDomain host : String} {app : App} {pair : ContainerService × String}

theorem routed_pair_public (routed : routedPair lib baseDomain app host = some pair) :
    pair ∈ publicDomains app baseDomain ∧
      Proxy.normalizeDomain lib pair.2 = Proxy.normalizeDomain lib host := by
  have member := List.mem_of_find?_eq_some routed
  have isKey := List.find?_some routed
  exact ⟨List.mem_reverse.mp member, by simpa using isKey⟩

theorem routed_pair_exists (member : pair ∈ publicDomains app baseDomain)
    (isKey : Proxy.normalizeDomain lib pair.2 = Proxy.normalizeDomain lib host) :
    ∃ routed, routedPair lib baseDomain app host = some routed := by
  apply Option.isSome_iff_exists.mp
  apply List.find?_isSome.mpr
  exact ⟨pair, List.mem_reverse.mpr member, by simpa using isKey⟩

theorem shown_route {view : View} (shows : ShowsApp lib baseDomain view app)
    (routed : routedPair lib baseDomain app host = some pair) :
    ∃ route, view (Proxy.normalizeDomain lib host) = some route ∧
      route.sslEnabled = pair.1.domainHttpsEnabled pair.2 ∧
      route.loginGate = pair.1.loginGate.map fun gate => ⟨app.ownerId, gate.scope⟩ := by
  obtain ⟨algorithm, upstreams, installed⟩ := shows
  refine ⟨keyed lib (serviceRoute app algorithm pair.1 (upstreams pair.1) pair.2), ?_, rfl, rfl⟩
  rw [← installed, install_eq_last]
  unfold appRoutes
  rw [← List.map_reverse, List.find?_map]
  have last : (publicDomains app baseDomain).reverse.find? ((fun route : Route =>
      decide (Proxy.normalizeDomain lib route.domain = Proxy.normalizeDomain lib host)) ∘
        fun pair => serviceRoute app algorithm pair.1 (upstreams pair.1) pair.2) = some pair :=
    routed
  rw [last]
  rfl

theorem mem_customs_fold {domain : String} {customs : List String} (member : domain ∈ customs)
    (domains : List String) :
    domain ∈ customs.foldl (fun domains domain =>
      if domains.contains domain then domains else domains ++ [domain]) domains := by
  induction customs generalizing domains with
  | nil => cases member
  | cons custom rest ih =>
      rw [List.foldl_cons]
      rcases List.mem_cons.mp member with same | later
      · apply mem_domains_fold
        rw [same]
        split_ifs with present
        · exact List.contains_iff_mem.mp present
        · exact List.mem_append_right _ List.mem_cons_self
      · exact ih later _

theorem mem_domains_for_service {service : ContainerService} {domain : String}
    (named : domain ∈ namedDomains service baseDomain) :
    domain ∈ domainsForService service baseDomain := by
  unfold domainsForService
  rcases List.mem_append.mp named with custom | generated
  · exact mem_customs_fold custom _
  · apply mem_domains_fold
    unfold serviceSubdomain
    rw [Option.mem_toList.mp generated]
    exact List.mem_cons_self

end Table

/-- Scheme, host and port of a URL, as `url::Url` reads them. -/
structure UrlParts where
  scheme : String
  host : String
  port : Nat
deriving DecidableEq, Repr

def schemeOf (https : Bool) : String := if https then "https" else "http"

def listener (config : ProxyConfig) (https : Bool) (host : String) : UrlParts :=
  ⟨schemeOf https, host, if https then config.httpsPort else config.httpPort⟩

/-- What the crates do for any input: lower-casing ASCII letters first changes nothing,
tokens are signed, pairs go to the query alone, and a URL has the scheme it is written with. -/
structure GateCrates (lib : Libraries) (urlParts : String → Option UrlParts) : Prop where
  lowers : ∀ text, lib.toLowercase (Text.toAsciiLowercase text) = lib.toLowercase text
  signs : ∀ secret claims, (lib.encodeToken secret claims).isSome = true
  parses : ∀ address pairs, (lib.urlWithPairs address pairs).isSome = (urlParts address).isSome
  keeps : ∀ address pairs url, lib.urlWithPairs address pairs = some url →
    urlParts url = urlParts address
  scheme : ∀ https rest parts, urlParts (schemeOf https ++ "://" ++ rest) = some parts →
    parts.scheme = schemeOf https

/-- No domain leads to two services. -/
def OneOwner (lib : Libraries) (baseDomain : String) (apps : List App) : Prop :=
  ∀ app ∈ apps, ∀ pair ∈ publicDomains app baseDomain,
    ∀ other ∈ apps, ∀ otherPair ∈ publicDomains other baseDomain,
      Proxy.normalizeDomain lib pair.2 = Proxy.normalizeDomain lib otherPair.2 →
        app = other ∧ pair.1 = otherPair.1

/-- The dashboard and the proxy of one installation: one configuration, one users table. -/
structure OneInstallation (dashboard : Dashboard) (proxy : ContainrProxy lib) : Prop where
  config : proxy.config = dashboard.config
  users : ∀ user, proxy.knownUser user = (dashboard.user user).isSome
  routes : HoldsRoutes lib dashboard.config.baseDomain dashboard.apps proxy.table.view

structure GateAgrees (urlParts : String → Option UrlParts) (dashboard : Dashboard)
    (proxy : ContainrProxy lib) (authorization : Auth.Authorization) (user : Uuid)
    (request : GatePassRequest) : Prop where
  issued : (∃ url, dashboard.pass lib authorization request = .ok url) ↔
    ∃ route gate, proxy.table.getRoute request.host = some route ∧ route.loginGate = some gate ∧
      proxy.allows gate user = true
  leadsBack : ∀ url, dashboard.pass lib authorization request = .ok url →
    ∃ route, proxy.table.getRoute request.host = some route ∧
      urlParts url = some (listener dashboard.config route.sslEnabled (normalizeHost request.host))

/-- The dashboard knows the service behind the route by the host, as https or as http just
as the route is, and the address of the listener is read as it is written. -/
def Recognised (urlParts : String → Option UrlParts) (config : ProxyConfig)
    (host : String) (pair : ContainerService × String) : Prop :=
  let https := pair.1.domainHttpsEnabled pair.2
  (∃ named, spelling pair.1 config.baseDomain (normalizeHost host) = some named ∧
    pair.1.domainHttpsEnabled named = https) ∧
  urlParts (originOf config https (normalizeHost host) ++ gateCallbackPath) =
    some (listener config https (normalizeHost host))

section Agreement

variable {urlParts : String → Option UrlParts} {dashboard : Dashboard} {proxy : ContainrProxy lib}
  {user : Uuid} {host : String}

/-- What the dashboard takes for one host the route table does too. -/
theorem same_key (crates : GateCrates lib urlParts) {domain other : String}
    (same : normalizeHost domain = normalizeHost other) :
    Proxy.normalizeDomain lib domain = Proxy.normalizeDomain lib other := by
  have first := crates.lowers (Text.trimEndMatches (Text.trim domain) '.')
  have second := crates.lowers (Text.trimEndMatches (Text.trim other) '.')
  unfold Proxy.normalizeDomain
  rw [← first, ← second]
  exact congrArg lib.toLowercase same

theorem spelling_named {service : ContainerService} {baseDomain named : String}
    (spelled : spelling service baseDomain host = some named) :
    named ∈ namedDomains service baseDomain ∧ normalizeHost named = host := by
  have isHost := List.find?_some spelled
  exact ⟨List.mem_of_find?_eq_some spelled, by simpa using isHost⟩

variable {target : GatedTarget}

theorem serves_routed (crates : GateCrates lib urlParts) {config : ProxyConfig} {app : App}
    {service : ContainerService} (inServices : service ∈ app.services)
    (serves : Serves config (normalizeHost host) app service target) :
    ∃ pair ∈ publicDomains app config.baseDomain, pair.1 = service ∧
      Proxy.normalizeDomain lib pair.2 = Proxy.normalizeDomain lib host := by
  obtain ⟨gate, named, -, spelled, -⟩ := serves.found
  have facts := spelling_named spelled
  refine ⟨(service, named), ?_, rfl, same_key crates facts.2⟩
  apply List.mem_flatMap.mpr
  refine ⟨service, List.mem_filter.mpr ⟨inServices, serves.isPublic⟩, ?_⟩
  exact List.mem_map.mpr ⟨named, mem_domains_for_service facts.1, rfl⟩

/-- Where the proxy has a route for the host, the dashboard finds its service or none. -/
theorem found_routed (crates : GateCrates lib urlParts)
    (unshared : OneOwner lib dashboard.config.baseDomain dashboard.apps)
    (found : findGatedTarget dashboard.apps dashboard.config (normalizeHost host) = some target)
    {app : App} (inApps : app ∈ dashboard.apps) {pair : ContainerService × String}
    (routed : routedPair lib dashboard.config.baseDomain app host = some pair) :
    Serves dashboard.config (normalizeHost host) app pair.1 target := by
  obtain ⟨other, inOthers, service, inServices, serves⟩ := find_gated_target_some found
  obtain ⟨served, isPublic, isService, sameKey⟩ := serves_routed crates inServices serves
  have facts := routed_pair_public routed
  have owner := unshared app inApps pair facts.1 other inOthers served isPublic
    (facts.2.trans sameKey.symm)
  rw [owner.1, owner.2, isService]
  exact serves

theorem allows_eq (installation : OneInstallation dashboard proxy) (target : GatedTarget) :
    dashboard.allows target user = proxy.allows ⟨target.ownerId, target.scope⟩ user := by
  unfold Dashboard.allows ContainrProxy.allows
  cases target.scope with
  | owner => rfl
  | allUsers => exact (installation.users user).symm

theorem scheme_of_inj {https other : Bool} (same : schemeOf https = schemeOf other) :
    https = other := by
  cases https with
  | false =>
      cases other with
      | false => rfl
      | true => exact absurd same (by decide)
  | true =>
      cases other with
      | false => exact absurd same (by decide)
      | true => rfl

theorem origin_scheme (config : ProxyConfig) (https : Bool) (host : String) :
    originOf config https host ++ gateCallbackPath = schemeOf https ++ "://" ++
      (host ++ portSuffix (schemeOf https) (if https then config.httpsPort else config.httpPort) ++
        gateCallbackPath) := by
  simp only [originOf, schemeOf, String.append_assoc]

/-- The pass is signed and its address is built wherever the origin is a URL. -/
theorem issued_iff (crates : GateCrates lib urlParts) (target : GatedTarget)
    (request : GatePassRequest) :
    (∃ url, dashboard.issued lib user target request = some url) ↔
      ∃ parts, urlParts (target.origin ++ gateCallbackPath) = some parts := by
  unfold Dashboard.issued issueGateToken
  obtain ⟨token, signed⟩ := Option.isSome_iff_exists.mp
    (crates.signs dashboard.config.jwtSecret ⟨user,
      Text.toAsciiLowercase (normalizeHost request.host), GateTokenKind.pass.asStr,
      dashboard.clock, dashboard.clock + GateTokenKind.pass.ttl⟩)
  rw [signed, Option.bind_some, ← Option.isSome_iff_exists, ← Option.isSome_iff_exists]
  unfold redirectUrl
  rw [crates.parses]

theorem issued_parts (crates : GateCrates lib urlParts) {request : GatePassRequest} {url : String}
    (issued : dashboard.issued lib user target request = some url) :
    urlParts url = urlParts (target.origin ++ gateCallbackPath) := by
  obtain ⟨token, -, built⟩ := Option.bind_eq_some_iff.mp issued
  exact crates.keeps _ _ _ built

variable {authorization : Auth.Authorization} {request : GatePassRequest}
  (crates : GateCrates lib urlParts) (installation : OneInstallation dashboard proxy)
  (signedIn : dashboard.signedIn authorization = some user)

include crates installation signedIn

/-- Without a route of an app there is neither a gate nor a pass. -/
theorem agrees_unrouted (unrouted : ∀ app ∈ dashboard.apps,
      routedPair lib dashboard.config.baseDomain app request.host = none) :
    GateAgrees urlParts dashboard proxy authorization user request := by
  have noPass : ∀ url, dashboard.pass lib authorization request ≠ .ok url := by
    intro url passed
    obtain ⟨target, found, -, -⟩ := (pass_iff signedIn lib request url).mp passed
    obtain ⟨app, inApps, service, inServices, serves⟩ := find_gated_target_some found
    obtain ⟨pair, isPublic, -, isKey⟩ := serves_routed crates inServices serves
    obtain ⟨routed, isRouted⟩ := routed_pair_exists isPublic isKey
    rw [unrouted app inApps] at isRouted
    cases isRouted
  have noGate : ∀ route gate, proxy.table.getRoute request.host = some route →
      route.loginGate ≠ some gate := by
    intro route gate found gated
    obtain ⟨app, inApps, pair, isPublic, isKey⟩ :=
      installation.routes.gates _ route gate found gated
    obtain ⟨routed, isRouted⟩ := routed_pair_exists isPublic isKey
    rw [unrouted app inApps] at isRouted
    cases isRouted
  constructor
  · constructor
    · intro passed
      obtain ⟨url, isUrl⟩ := passed
      exact absurd isUrl (noPass url)
    · intro admitted
      obtain ⟨route, gate, found, gated, -⟩ := admitted
      exact absurd gated (noGate route gate found)
  · intro url passed
    exact absurd passed (noPass url)

section Routed

variable (unshared : OneOwner lib dashboard.config.baseDomain dashboard.apps) {app : App}
  (inApps : app ∈ dashboard.apps) {pair : ContainerService × String}
  (routed : routedPair lib dashboard.config.baseDomain app request.host = some pair)

include unshared inApps routed

/-- A pass is for a user whom the gate of the route's service admits, and its address is
that of the service under the first spelling of the host. -/
theorem pass_routed_iff (url : String) : dashboard.pass lib authorization request = .ok url ↔
    ∃ gate named, pair.1.loginGate = some gate ∧
      spelling pair.1 dashboard.config.baseDomain (normalizeHost request.host) = some named ∧
      proxy.allows ⟨app.ownerId, gate.scope⟩ user = true ∧
      dashboard.issued lib user ⟨app.ownerId, gate.scope, originOf dashboard.config
        (pair.1.domainHttpsEnabled named) (normalizeHost request.host)⟩ request = some url := by
  rw [pass_iff signedIn]
  constructor
  · intro passed
    obtain ⟨target, found, allowed, issued⟩ := passed
    obtain ⟨gate, named, gated, spelled, isTarget⟩ :=
      (found_routed crates unshared found inApps routed).found
    rw [allows_eq installation, isTarget] at allowed
    rw [isTarget] at issued
    exact ⟨gate, named, gated, spelled, allowed, issued⟩
  · intro admitted
    obtain ⟨gate, named, gated, spelled, allowed, issued⟩ := admitted
    have exposed := public_exposed (routed_pair_public routed).1
    have facts := List.mem_filter.mp exposed
    have serves : Serves dashboard.config (normalizeHost request.host) app pair.1 ⟨app.ownerId,
        gate.scope, originOf dashboard.config (pair.1.domainHttpsEnabled named)
          (normalizeHost request.host)⟩ := ⟨facts.2, gate, named, gated, spelled, rfl⟩
    obtain ⟨target, found⟩ := find_gated_target_isSome inApps facts.1 serves
    obtain ⟨otherGate, otherNamed, otherGated, otherSpelled, isTarget⟩ :=
      (found_routed crates unshared found inApps routed).found
    rw [gated] at otherGated
    rw [spelled] at otherSpelled
    rw [← Option.some.inj otherGated, ← Option.some.inj otherSpelled] at isTarget
    refine ⟨target, found, ?_, ?_⟩
    · rw [allows_eq installation, isTarget]
      exact allowed
    · rw [isTarget]
      exact issued

theorem agrees_routed_iff : GateAgrees urlParts dashboard proxy authorization user request ↔
    ∀ gate, pair.1.loginGate = some gate → proxy.allows ⟨app.ownerId, gate.scope⟩ user = true →
      Recognised urlParts dashboard.config request.host pair := by
  obtain ⟨route, stands, https, gates⟩ := shown_route (installation.routes.shown app inApps) routed
  have found : proxy.table.getRoute request.host = some route := stands
  have passes := @pass_routed_iff lib urlParts dashboard proxy user authorization request crates
    installation signedIn unshared app inApps pair routed
  have isGate : ∀ gate, pair.1.loginGate = some gate →
      route.loginGate = some ⟨app.ownerId, gate.scope⟩ := by
    intro gate gated
    rw [gates, gated]
    rfl
  constructor
  · intro agrees gate gated allowed
    obtain ⟨url, passed⟩ := agrees.issued.mpr ⟨route, _, found, isGate gate gated, allowed⟩
    obtain ⟨shown, isShown, parts⟩ := agrees.leadsBack url passed
    obtain ⟨other, named, -, spelled, -, issued⟩ := (passes url).mp passed
    rw [found] at isShown
    rw [← Option.some.inj isShown, https, issued_parts crates issued] at parts
    -- the scheme of the address tells which flag the dashboard took
    have written := parts
    rw [origin_scheme] at written
    have sameFlag := scheme_of_inj (crates.scheme _ _ _ written)
    rw [← sameFlag] at parts
    exact ⟨⟨named, spelled, sameFlag.symm⟩, parts⟩
  · intro recognised
    constructor
    · constructor
      · intro passed
        obtain ⟨url, isUrl⟩ := passed
        obtain ⟨gate, named, gated, -, allowed, -⟩ := (passes url).mp isUrl
        exact ⟨route, _, found, isGate gate gated, allowed⟩
      · intro admitted
        obtain ⟨shown, gate, isShown, gated, allowed⟩ := admitted
        rw [found] at isShown
        rw [← Option.some.inj isShown, gates] at gated
        obtain ⟨own, isOwn, isPair⟩ := Option.map_eq_some_iff.mp gated
        rw [← isPair] at allowed
        obtain ⟨⟨named, spelled, sameFlag⟩, parts⟩ := recognised own isOwn allowed
        rw [← sameFlag] at parts
        obtain ⟨url, issued⟩ := (@issued_iff lib urlParts dashboard user crates
          ⟨app.ownerId, own.scope, originOf dashboard.config (pair.1.domainHttpsEnabled named)
            (normalizeHost request.host)⟩ request).mpr ⟨_, parts⟩
        exact ⟨url, (passes url).mpr ⟨own, named, isOwn, spelled, allowed, issued⟩⟩
    · intro url passed
      obtain ⟨gate, named, gated, spelled, allowed, issued⟩ := (passes url).mp passed
      obtain ⟨⟨other, isOther, sameFlag⟩, parts⟩ := recognised gate gated allowed
      rw [spelled] at isOther
      rw [← Option.some.inj isOther] at sameFlag
      refine ⟨route, found, ?_⟩
      rw [issued_parts crates issued, https, sameFlag]
      exact parts

end Routed

end Agreement

/-- The dashboard and the proxy agree on a host exactly when the dashboard recognises every
gated service it admits the user to: the host spells a custom or generated domain of the
service (not only the name that stands in where no base domain is set, nor only in lower
case beyond ASCII), its first spelling is https just as the routed one, and the address is
read as it is written. -/
theorem gate_agrees_iff (urlParts : String → Option UrlParts) (crates : GateCrates lib urlParts)
    (dashboard : Dashboard) (proxy : ContainrProxy lib)
    (installation : OneInstallation dashboard proxy)
    (unshared : OneOwner lib dashboard.config.baseDomain dashboard.apps)
    (authorization : Auth.Authorization) (user : Uuid)
    (signedIn : dashboard.signedIn authorization = some user) (request : GatePassRequest) :
    GateAgrees urlParts dashboard proxy authorization user request ↔
      ∀ app ∈ dashboard.apps, ∀ pair gate,
        routedPair lib dashboard.config.baseDomain app request.host = some pair →
        pair.1.loginGate = some gate → proxy.allows ⟨app.ownerId, gate.scope⟩ user = true →
          Recognised urlParts dashboard.config request.host pair := by
  by_cases somewhere : ∃ app ∈ dashboard.apps, ∃ pair,
      routedPair lib dashboard.config.baseDomain app request.host = some pair
  · obtain ⟨app, inApps, pair, routed⟩ := somewhere
    rw [agrees_routed_iff crates installation signedIn unshared inApps routed]
    constructor
    · intro recognised other inOthers otherPair gate otherRouted gated allowed
      have first := routed_pair_public routed
      have second := routed_pair_public otherRouted
      have owner := unshared app inApps pair first.1 other inOthers otherPair second.1
        (first.2.trans second.2.symm)
      rw [← owner.1] at otherRouted allowed
      have samePair : pair = otherPair := Option.some.inj (routed.symm.trans otherRouted)
      rw [← samePair] at gated ⊢
      exact recognised gate gated allowed
    · intro recognised gate gated allowed
      exact recognised app inApps pair gate routed gated allowed
  · have unrouted : ∀ app ∈ dashboard.apps,
        routedPair lib dashboard.config.baseDomain app request.host = none := by
      intro app inApps
      by_contra routed
      exact somewhere ⟨app, inApps, Option.ne_none_iff_exists'.mp routed⟩
    constructor
    · intro _ app inApps pair gate routed
      exact absurd ⟨app, inApps, pair, routed⟩ somewhere
    · intro _
      exact agrees_unrouted crates installation signedIn unrouted

/-! An installation with one gated service. -/

def gateAddress : String := "https://app.test/__containr/gate"

def gateUrl : String := "https://app.test/__containr/gate?pass=p&return=%2F"

def gateLibraries : Libraries where
  toLowercase := Text.toAsciiLowercase
  decodeBase64 _ := none
  verifyPassword _ _ := false
  decodeToken _ _ _ := none
  encodeToken _ _ := some "p"
  parseQuery _ := []
  urlWithPairs address _ := if address ∈ [gateAddress, gateUrl] then some gateUrl else none

def gateUrlParts (url : String) : Option UrlParts :=
  if url ∈ [gateAddress, gateUrl] then some ⟨"https", "app.test", 443⟩ else none

theorem gate_crates : GateCrates gateLibraries gateUrlParts where
  lowers := Text.to_ascii_lowercase_idem
  signs _ _ := rfl
  parses address pairs := by
    change (if _ then _ else _ : Option String).isSome =
      (if _ then _ else _ : Option UrlParts).isSome
    split_ifs
    · rfl
    · rfl
  keeps address pairs url built := by
    change (if address ∈ [gateAddress, gateUrl] then some gateUrl else none) = some url at built
    split_ifs at built with known
    rw [← Option.some.inj built]
    unfold gateUrlParts
    rw [if_pos known, if_pos (by decide)]
  scheme https rest parts read := by
    unfold gateUrlParts at read
    split_ifs at read with known
    rw [← Option.some.inj read]
    cases https with
    | true => rfl
    | false =>
        -- both addresses go on with an `s`
        have fifth : ∀ url ∈ [gateAddress, gateUrl], (url.toList.drop 4).head? = some 's' := by
          decide +kernel
        have other := fifth _ known
        simp [schemeOf] at other

def gateService : ContainerService :=
  { ContainerService.new ⟨4⟩ 0 ⟨3⟩ "web" "nginx" 80 with
    serviceType := .webService
    domains := ["app.test"]
    loginGate := some ⟨.owner⟩ }

def gateApp : App where
  id := ⟨3⟩
  name := "app"
  githubUrl := ""
  branch := "main"
  domains := []
  envVars := []
  autoDeployEnabled := false
  autoDeployWatchPaths := []
  autoDeployCleanupStaleDeployments := false
  deployWebhookToken := none
  port := 80
  services := [gateService]
  rolloutStrategy := .stopFirst
  ownerId := ⟨1⟩
  createdAt := 0
  updatedAt := 0

def gateDashboard (baseDomain : String) : Dashboard where
  config := ⟨"secret", baseDomain, 80, 443, none, "", ""⟩
  apps := [gateApp]
  session _ _ := .ok ⟨1⟩
  user _ := none
  clock := 0

def gateProxy (baseDomain : String) : ContainrProxy gateLibraries where
  table := (appRoutes .roundRobin baseDomain (fun _ => []) gateApp).foldl
    Table.addRoute ⟨Map.empty, 0⟩
  config := (gateDashboard baseDomain).config
  challenges := Map.empty
  clock := 0
  knownUser _ := false
  hasCertificate _ := false
  loadApp _ := .error "not asked"
  listDeployments _ := .error "not asked"
  listContainers _ := .ok []
  networksOf _ := none
  loadedId := by
    intro id app loaded
    cases loaded
  newestFirst := by
    intro appId deployments listed
    cases listed

theorem gate_installation (baseDomain : String) :
    OneInstallation (gateDashboard baseDomain) (gateProxy baseDomain) where
  config := rfl
  users _ := rfl
  routes := by
    have empty : (⟨Map.empty, 0⟩ : Table gateLibraries).view = fun _ => none := rfl
    have view : (gateProxy baseDomain).table.view = install gateLibraries (appRoutes .roundRobin
        baseDomain (fun _ => []) gateApp) fun _ => none := by
      unfold gateProxy
      rw [view_add_routes, empty]
    constructor
    · intro app inApps
      rw [List.mem_singleton.mp inApps]
      refine ⟨.roundRobin, fun _ => [], ?_⟩
      rw [view]
      exact install_again _ _
    · intro key route gate found gated
      rw [view, install_eq_last, Option.or_none] at found
      obtain ⟨last, isLast, -⟩ := Option.map_eq_some_iff.mp found
      obtain ⟨pair, member, isRoute⟩ :=
        List.mem_map.mp (List.mem_reverse.mp (List.mem_of_find?_eq_some isLast))
      refine ⟨_, List.mem_singleton_self _, pair, member, ?_⟩
      have isKey := List.find?_some isLast
      rw [← isRoute] at isKey
      exact of_decide_eq_true isKey

/-- All domains are those of the one service. -/
theorem gate_one_owner (baseDomain : String) :
    OneOwner gateLibraries baseDomain (gateDashboard baseDomain).apps := by
  have only : ∀ pair ∈ publicDomains gateApp baseDomain, pair.1 = gateService := by
    intro pair member
    exact List.mem_singleton.mp (List.mem_filter.mp (public_exposed member)).1
  intro app inApps pair member other inOthers otherPair otherMember _
  rw [List.mem_singleton.mp inApps] at member ⊢
  rw [List.mem_singleton.mp inOthers] at otherMember ⊢
  exact ⟨rfl, (only pair member).trans (only otherPair otherMember).symm⟩

/-- A pass for the custom domain. -/
theorem gate_agrees_custom_domain : GateAgrees gateUrlParts (gateDashboard "adm.test")
    (gateProxy "adm.test") (some "Bearer t") ⟨1⟩ ⟨"App.test.", none⟩ := by
  apply (gate_agrees_iff gateUrlParts gate_crates _ _ (gate_installation "adm.test")
    (gate_one_owner "adm.test") (some "Bearer t") ⟨1⟩ (by decide +kernel) _).mpr
  intro app inApps pair gate routed gated allowed
  rw [List.mem_singleton.mp inApps] at routed
  have isPair : routedPair gateLibraries "adm.test" gateApp "App.test." =
      some (gateService, "app.test") := by decide +kernel
  have samePair : (gateService, "app.test") = pair := Option.some.inj (isPair.symm.trans routed)
  rw [← samePair]
  exact ⟨⟨"app.test", by decide +kernel, rfl⟩, by decide +kernel⟩

/-- Without a base domain the route of a service stands at its name, for which the dashboard
knows no gate. -/
theorem fallback_name_without_pass : GateCrates gateLibraries gateUrlParts ∧
    OneInstallation (gateDashboard "") (gateProxy "") ∧
    OneOwner gateLibraries "" (gateDashboard "").apps ∧
    (gateDashboard "").signedIn (some "Bearer t") = some ⟨1⟩ ∧
    ¬GateAgrees gateUrlParts (gateDashboard "") (gateProxy "") (some "Bearer t") ⟨1⟩
      ⟨"web", none⟩ := by
  refine ⟨gate_crates, gate_installation "", gate_one_owner "", by decide +kernel, ?_⟩
  intro agrees
  have gated : (((gateProxy "").table.getRoute "web").bind Route.loginGate) =
      some ⟨⟨1⟩, .owner⟩ := by decide +kernel
  obtain ⟨route, found, isGate⟩ := Option.bind_eq_some_iff.mp gated
  obtain ⟨url, passed⟩ := agrees.issued.mpr ⟨route, _, found, isGate, by decide⟩
  have refused : (gateDashboard "").pass gateLibraries (some "Bearer t") ⟨"web", none⟩ =
      .error ⟨404, "this domain has no containr login"⟩ := by decide +kernel
  rw [refused] at passed
  cases passed

end Containr.Api.GatePass
