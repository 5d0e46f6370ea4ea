import Containr.Effect.Machine
import Containr.Proxy.Routes

/-!
# `request_filter` of `containr-proxy/src/pingora_proxy.rs`

Each lookup of the route table is a call of its own, so other tasks can change the
table between two of them. The handler ends with an upstream or with a response;
an error on the way (an unwritable response, an unusable dashboard address) ends
the request like a response does. Flags that only decorate a forwarded request
(websocket, gRPC, SSE, the forwarded headers) are left out.
-/

namespace Containr.Proxy

open Containr.Effect

structure ProxyConfig where
  jwtSecret : String
  baseDomain : String
  httpPort : Nat
  httpsPort : Nat
  rustfsPublicHostname : Option String
  managementEndpoint : String
  apiUpstream : String
deriving DecidableEq, Repr

inductive ProxyOp (lib : Libraries) where
  | readConfig
  | challenge (token : String)
  | getRoute (domain : String)
  | checkBasicAuth (domain : String) (authorization : Option String)
  | verify (pending : PendingBasicAuth lib)
  | selectUpstream (domain : String)
  | knownUser (user : Uuid)
  | hasCertificate (domain : String)
  | utcNow
  | addRoute (route : Route)
  | removeRoute (domain : String)
  | listRoutes
  | loadApp (id : Uuid)
  | listDeployments (appId : Uuid)
  | listContainers (nameFilter : String)
  | networksOf (container : String)

/-- A container is listed with its names, if it has any; a network with its address. -/
def ProxyOp.Answer {lib : Libraries} : ProxyOp lib → Type
  | .readConfig => ProxyConfig
  | .challenge _ => Option String
  | .getRoute _ => Option Route
  | .checkBasicAuth _ _ => BasicAuthCheck lib
  | .verify _ | .knownUser _ | .hasCertificate _ => Bool
  | .selectUpstream _ => Option (SelectedUpstream lib)
  | .utcNow => Time
  | .addRoute _ | .removeRoute _ => Unit
  | .listRoutes => List Route
  | .loadApp _ => Except String (Option App)
  | .listDeployments _ => Except String (List Deployment)
  | .listContainers _ => Except String (List (Option (List String)))
  | .networksOf _ => Option (List (String × Option String))

abbrev ProxyFace (lib : Libraries) : Interface := ⟨ProxyOp lib, ProxyOp.Answer⟩

abbrev Prog (lib : Libraries) (Value : Type) : Type := Program (ProxyFace lib) Value

def ask {lib : Libraries} (op : ProxyOp lib) : Prog lib op.Answer :=
  @Program.perform (ProxyFace lib) op

/-- Header names are in lower case; a value that is not visible ASCII is `none`. -/
structure Request where
  method : String
  authority : Option String
  path : String
  query : Option String
  pathAndQuery : Option String
  headers : List (String × Option String)
  tls : Bool
deriving DecidableEq, Repr

structure Response where
  status : Nat
  headers : List (String × String)
  body : String
deriving DecidableEq, Repr

inductive Outcome (lib : Libraries) where
  | forward (selection : SelectedUpstream lib)
  | forwardTo (address : String) (tls : Bool)
  | respond (response : Response)
  | failed (message : String)

def Request.header (request : Request) (name : String) : Option String :=
  (request.headers.find? fun header => header.1 = name).bind Prod.snd

def requestAuthority (request : Request) : String :=
  ((request.header "host").orElse fun _ => request.authority).getD ""

variable {lib : Libraries}

def normalizeHostname (lib : Libraries) (hostname : String) : String :=
  lib.toLowercase (Text.trimEndMatches
    (Text.trimStartMatches (Text.trimStartMatches hostname "https://") "http://") '/')

/-- A bracketed IPv6 literal keeps its colons; a port is cut off. -/
def authorityHostname (lib : Libraries) (authority : String) : String :=
  let hostname :=
    if Text.startsWith authority "[" then
      if authority.toList.contains ']' then
        String.ofList (authority.toList.takeWhile (· ≠ ']') ++ [']'])
      else authority
    else String.ofList (authority.toList.takeWhile (· ≠ ':'))
  normalizeHostname lib hostname

def Request.host (lib : Libraries) (request : Request) : String :=
  authorityHostname lib (requestAuthority request)

/-- `config.storage.rustfs_public_hostname`, unless it is blank. -/
def storagePublicHostname (lib : Libraries) (config : ProxyConfig) : Option String :=
  ((config.rustfsPublicHostname.map Text.trim).filter fun name => !name.isEmpty).map
    (normalizeHostname lib)

def parseStorageManagementUpstream (endpoint : String) : Option (String × Bool) :=
  let trimmed := Text.trim endpoint
  if trimmed.isEmpty then none
  else
    let (rest, tls) := match Text.stripFront trimmed "https://" with
      | some rest => (rest, true)
      | none => ((Text.stripFront trimmed "http://").getD trimmed, false)
    let authority := Text.trim (String.ofList (rest.toList.takeWhile (· ≠ '/')))
    if authority.isEmpty then none
    else if authority.toList.contains ':' then some (authority, tls)
    else some (authority ++ ":" ++ (if tls then "443" else "80"), tls)

/-- The first cookie of that name across all `cookie` headers. -/
def cookieValue (request : Request) (name : String) : Option String :=
  let values := (request.headers.filter fun header => header.1 = "cookie").filterMap Prod.snd
  let pairs := (values.flatMap (Text.splitAt ';')).filterMap fun pair =>
    Text.splitOnce '=' (Text.trim pair)
  (pairs.find? fun pair => pair.1 = name).map Prod.snd

def safeReturnPath (path : Option String) : String :=
  match path.map Text.trim with
  | some path =>
      if Text.startsWith path "/" && !Text.startsWith path "//" && !Text.startsWith path "/\\" &&
          !path.toList.any (fun ch => ch.toNat < 32 || (127 ≤ ch.toNat && ch.toNat < 160)) then path
      else "/"
  | none => "/"

inductive GateTokenKind where
  | pass | session
deriving DecidableEq, Repr

def GateTokenKind.asStr : GateTokenKind → String
  | .pass => "gate_pass"
  | .session => "gate_session"

def passTtlSeconds : Nat := 60

def sessionTtlSeconds : Nat := 12 * 60 * 60

def GateTokenKind.ttl : GateTokenKind → Nat
  | .pass => passTtlSeconds
  | .session => sessionTtlSeconds

def gateCookie : String := "containr_gate"

def gateCallbackPath : String := "/__containr/gate"

def issueGateToken (lib : Libraries) (secret : String) (user : Uuid) (host : String)
    (kind : GateTokenKind) (now : Time) : Option String :=
  lib.encodeToken secret
    ⟨user, Text.toAsciiLowercase host, kind.asStr, now, now + kind.ttl⟩

def verifyGateToken (lib : Libraries) (secret token host : String) (kind : GateTokenKind)
    (now : Time) : Option Uuid :=
  match lib.decodeToken secret token now with
  | none => none
  | some claims =>
      if claims.kind ≠ kind.asStr || !Text.eqIgnoreAsciiCase claims.host host then none
      else some claims.sub

def textResponse (status : Nat) (body : String) : Response :=
  ⟨status, [("Content-Type", "text/plain"), ("Content-Length", toString body.utf8ByteSize)], body⟩

/-- `write_text`. -/
def uncachedText (status : Nat) (body : String) : Response :=
  ⟨status, [("Content-Type", "text/plain; charset=utf-8"), ("Cache-Control", "no-store"),
    ("Content-Length", toString body.utf8ByteSize)], body⟩

def acmeChallengePath : String := "/.well-known/acme-challenge/"

def challengeToken (path : String) : Option String :=
  if Text.startsWith path acmeChallengePath then
    some (Text.trimStartMatches path acmeChallengePath)
  else none

def gateAllows (gate : RouteLoginGate) (user : Uuid) : Prog lib Bool :=
  match gate.scope with
  | .owner => .pure (gate.ownerId = user)
  | .allUsers => ask (.knownUser user)

def lastPair (pairs : List (String × String)) (key : String) : Option String :=
  ((pairs.filter fun pair => pair.1 = key).map Prod.snd).getLast?

def checkToken (secret host : String) (kind : GateTokenKind) (token : Option String) :
    Prog lib (Option Uuid) :=
  match token with
  | none => .pure none
  | some token => (ask .utcNow).bind fun now => .pure (verifyGateToken lib secret token host kind now)

def allowedUser (gate : RouteLoginGate) (user : Option Uuid) : Prog lib (Option Uuid) :=
  match user with
  | none => .pure none
  | some user => (gateAllows gate user).bind fun allowed =>
      .pure (if allowed then some user else none)

def sessionCookie (token : String) (tls : Bool) : String :=
  gateCookie ++ "=" ++ token ++ "; Path=/; HttpOnly; SameSite=Lax; Max-Age=" ++
    toString sessionTtlSeconds ++ (if tls then "; Secure" else "")

def gateDenied : Response :=
  uncachedText 403 "this login link expired or isn't yours; open the service again"

def gateEntered (token : String) (tls : Bool) (returnTo : Option String) : Response :=
  ⟨303, [("Location", safeReturnPath returnTo), ("Set-Cookie", sessionCookie token tls),
    ("Cache-Control", "no-store"), ("Content-Length", "0")], ""⟩

def issueSession (secret host : String) (user : Option Uuid) : Prog lib (Option String) :=
  match user with
  | none => .pure none
  | some user => (ask .utcNow).bind fun now =>
      .pure (issueGateToken lib secret user host .session now)

def exchangePass (secret host : String) (request : Request) (gate : RouteLoginGate) :
    Prog lib Response :=
  let pairs := lib.parseQuery (request.query.getD "")
  (checkToken secret host .pass (lastPair pairs "pass")).bind fun user =>
    (allowedUser gate user).bind fun user =>
      (issueSession secret host user).bind fun token => .pure (match token with
        | none => gateDenied
        | some token => gateEntered token request.tls (lastPair pairs "return"))

def portSuffix (scheme : String) (port : Nat) : String :=
  if (scheme = "https" && port = 443) || (scheme = "http" && port = 80) then ""
  else ":" ++ toString port

def loginUrl (lib : Libraries) (config : ProxyConfig) (host : String) (request : Request) :
    Option String :=
  let scheme := if request.tls then "https" else "http"
  let port := if request.tls then config.httpsPort else config.httpPort
  lib.urlWithPairs (scheme ++ "://" ++ config.baseDomain ++ portSuffix scheme port ++ "/gate")
    [("host", host), ("return", request.pathAndQuery.getD "/")]

def isNavigation (request : Request) : Bool :=
  (request.method = "GET" || request.method = "HEAD") &&
    !request.headers.any fun header => header.1 = "upgrade"

def askForLogin (config : ProxyConfig) (host : String) (request : Request) : Outcome lib :=
  if !isNavigation request then .respond (uncachedText 401 "containr login required")
  else match loginUrl lib config host request with
    | none => .failed "invalid dashboard address"
    | some location => .respond ⟨302, [("Location", location), ("Cache-Control", "no-store"),
        ("Content-Length", "0")], ""⟩

/-- `none`: the request may go on to the app. -/
def enforceLoginGate (host : String) (request : Request) (gate : RouteLoginGate) :
    Prog lib (Option (Outcome lib)) :=
  (ask .readConfig).bind fun config =>
    if request.path = gateCallbackPath then
      (exchangePass config.jwtSecret host request gate).bind fun response =>
        .pure (some (.respond response))
    else
      (checkToken config.jwtSecret host .session (cookieValue request gateCookie)).bind fun user =>
        (allowedUser gate user).bind fun user =>
          .pure (if user.isSome then none else some (askForLogin config host request))

def basicAuthAllowed (host : String) (request : Request) : Prog lib Bool :=
  (ask (.checkBasicAuth host (request.header "authorization"))).bind fun check =>
    match check with
    | .notRequired | .allowed => .pure true
    | .denied => .pure false
    | .verify pending => ask (.verify pending)

def authenticationRequired : Response :=
  ⟨401, [("WWW-Authenticate", "Basic realm=\"containr\""), ("Content-Type", "text/plain"),
    ("Content-Length", "23")], "authentication required"⟩

/-- The gate of the looked-up route, else basic auth. `none`: authenticated. -/
def authenticate (host : String) (request : Request) (route : Route) :
    Prog lib (Option (Outcome lib)) :=
  match route.loginGate with
  | some gate => enforceLoginGate host request gate
  | none => (basicAuthAllowed host request).bind fun allowed =>
      .pure (if allowed then none else some (.respond authenticationRequired))

def forwardRoute (host : String) : Prog lib (Outcome lib) :=
  (ask (.selectUpstream host)).bind fun selected => .pure (match selected with
    | some selection => .forward selection
    | none => .respond (textResponse 503 "service is mapped but has no live upstream"))

def routeRequest (host : String) (request : Request) : Prog lib (Outcome lib) :=
  (ask (.getRoute host)).bind fun found =>
    match found with
    | none => .pure (.respond (textResponse 404 "no route found"))
    | some route => (authenticate host request route).bind fun stopped =>
        match stopped with
        | some outcome => .pure outcome
        | none => forwardRoute host

def managedHost (lib : Libraries) (config : ProxyConfig) (host : String) : Bool :=
  host = normalizeHostname lib config.baseDomain || storagePublicHostname lib config = some host

def httpsRequired (config : ProxyConfig) (host : String) : Prog lib Bool :=
  if host.isEmpty then .pure false
  else if managedHost lib config host then .pure true
  else (ask (.getRoute host)).bind fun found => .pure (found.any Route.sslEnabled)

def insecureResponse (host : String) (request : Request) (certified : Bool) : Response :=
  if certified then
    ⟨308, [("Location", "https://" ++ host ++ request.pathAndQuery.getD "/"),
      ("Content-Length", "0")], ""⟩
  else textResponse 426 "https required; certificate provisioning in progress"

def refuseHttp (host : String) (request : Request) : Prog lib (Outcome lib) :=
  (ask (.hasCertificate host)).bind fun certified =>
    .pure (.respond (insecureResponse host request certified))

def dispatch (config : ProxyConfig) (host : String) (request : Request) : Prog lib (Outcome lib) :=
  if host = normalizeHostname lib config.baseDomain then
    .pure (.forwardTo config.apiUpstream false)
  else if storagePublicHostname lib config = some host then
    .pure (match parseStorageManagementUpstream config.managementEndpoint with
      | none => .respond (textResponse 503 "storage proxy is not configured")
      | some (address, tls) => .forwardTo address tls)
  else routeRequest host request

/-- After the challenges: https first, then the upstream. -/
def serveRequest (config : ProxyConfig) (host : String) (request : Request) :
    Prog lib (Outcome lib) :=
  (httpsRequired config host).bind fun required =>
    if !request.tls && required then refuseHttp host request else dispatch config host request

def serveChallenge (path : String) : Prog lib (Option Response) :=
  match challengeToken path with
  | none => .pure none
  | some token => (ask (.challenge token)).bind fun found =>
      .pure (found.map fun keyAuth => textResponse 200 keyAuth)

def requestFilter (lib : Libraries) (request : Request) : Prog lib (Outcome lib) :=
  (ask .readConfig).bind fun config =>
    (serveChallenge request.path).bind fun challenge =>
      match challenge with
      | some response => .pure (.respond response)
      | none => serveRequest config (request.host lib) request

/-- The table, and what the rest of the system answers. -/
structure ContainrProxy (lib : Libraries) where
  table : Table lib
  config : ProxyConfig
  challenges : Map String String
  clock : Time
  knownUser : Uuid → Bool
  hasCertificate : String → Bool
  loadApp : Uuid → Except String (Option App)
  listDeployments : Uuid → Except String (List Deployment)
  listContainers : String → Except String (List (Option (List String)))
  networksOf : String → Option (List (String × Option String))
  /-- An app is stored under its id. -/
  loadedId : ∀ id app, loadApp id = .ok (some app) → app.id = id
  /-- `ORDER BY created_at DESC`. -/
  newestFirst : ∀ appId deployments, listDeployments appId = .ok deployments →
    deployments.Pairwise fun earlier later => later.createdAt ≤ earlier.createdAt

def ContainrProxy.answer (proxy : ContainrProxy lib) :
    (op : ProxyOp lib) → op.Answer × ContainrProxy lib
  | .readConfig => (proxy.config, proxy)
  | .challenge token => (proxy.challenges.get token, proxy)
  | .getRoute domain => (proxy.table.getRoute domain, proxy)
  | .checkBasicAuth domain authorization => (proxy.table.checkBasicAuth domain authorization, proxy)
  | .verify pending =>
      ((proxy.table.verify pending).1, { proxy with table := (proxy.table.verify pending).2 })
  | .selectUpstream domain => ((proxy.table.selectUpstream domain).1,
      { proxy with table := (proxy.table.selectUpstream domain).2 })
  | .knownUser user => (proxy.knownUser user, proxy)
  | .hasCertificate domain => (proxy.hasCertificate domain, proxy)
  | .utcNow => (proxy.clock, proxy)
  | .addRoute route => ((), { proxy with table := proxy.table.addRoute route })
  | .removeRoute domain => ((), { proxy with table := proxy.table.removeRoute domain })
  | .listRoutes => (proxy.table.listRoutes, proxy)
  | .loadApp id => (proxy.loadApp id, proxy)
  | .listDeployments appId => (proxy.listDeployments appId, proxy)
  | .listContainers nameFilter => (proxy.listContainers nameFilter, proxy)
  | .networksOf container => (proxy.networksOf container, proxy)

/-- Nothing but the proxy's own calls changes anything. -/
def alone (lib : Libraries) : Machine (ProxyFace lib) (ContainrProxy lib) where
  Choice _ := Unit
  exec op _ proxy := proxy.answer op
  Admits _ _ _ := True

def ContainrProxy.execute {Value : Type} (proxy : ContainrProxy lib) (program : Prog lib Value) :
    Value × ContainrProxy lib :=
  program.run (alone lib) (fun _ _ => ()) proxy

@[simp] theorem execute_pure {Value : Type} (proxy : ContainrProxy lib) (value : Value) :
    proxy.execute (.pure value) = (value, proxy) := rfl

@[simp] theorem execute_bind {Value Other : Type} (proxy : ContainrProxy lib) (program : Prog lib Value)
    (continuation : Value → Prog lib Other) :
    proxy.execute (program.bind continuation) =
      (proxy.execute program).2.execute (continuation (proxy.execute program).1) :=
  Program.run_bind _ _ _ _ _

@[simp] theorem execute_ask (proxy : ContainrProxy lib) (op : ProxyOp lib) :
    proxy.execute (ask op) = proxy.answer op := rfl

end Containr.Proxy
