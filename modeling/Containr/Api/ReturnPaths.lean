import Containr.Api.GatePass
import Containr.Reference

/-!
# Where the login gate sends the browser

A return path passes the filter of the dashboard and that of the callback. What either lets
through stays on the host it is resolved against, and a path that neither changes comes back
as it was.
-/

namespace Containr.Api.GatePass

open Containr.Effect Containr.Effect.Program Containr.Proxy Containr.Reference

/-- `char::is_control`. -/
def isControl (ch : Char) : Bool := ch.toNat < 32 || (127 ≤ ch.toNat && ch.toNat < 160)

structure OnSite (path : String) : Prop where
  rooted : Text.startsWith path "/" = true
  notDouble : ¬Text.startsWith path "//" = true
  notBackslash : ¬Text.startsWith path "/\\" = true
  printable : ∀ ch ∈ path.toList, isControl ch = false

theorem root_on_site : OnSite "/" :=
  ⟨by decide, by decide, by decide, Text.every_char (by decide)⟩

section OnSite

variable {path : String} {given : Option String}

theorem tab_or_newline_control {ch : Char} (printable : isControl ch = false) :
    isTabOrNewline ch = false := by
  cases removed : isTabOrNewline ch with
  | false => rfl
  | true =>
      simp only [isTabOrNewline, Bool.or_eq_true, decide_eq_true_eq] at removed
      have control : isControl ch = true := by
        rcases removed with (isTab | isNewline) | isReturn
        · rw [isTab]
          decide
        · rw [isNewline]
          decide
        · rw [isReturn]
          decide
      rw [printable] at control
      cases control

theorem on_site_single {second : Char} {rest : List Char} (site : OnSite path)
    (whole : path.toList = '/' :: second :: rest) : isSlash second = false := by
  have notDouble := site.notDouble
  have notBackslash := site.notBackslash
  unfold Text.startsWith at notDouble notBackslash
  rw [whole] at notDouble notBackslash
  simp only [isSlash, Bool.or_eq_false_iff, decide_eq_false_iff_not]
  constructor
  · intro isSlash
    exact notDouble (by simp [isSlash, List.isPrefixOf])
  · intro isBackslash
    exact notBackslash (by simp [isBackslash, List.isPrefixOf])

/-- Such a path keeps scheme, host and port of whatever it is resolved against. -/
theorem on_site_resolves (site : OnSite path) (base : Target) :
    resolve base path.toList = base := by
  obtain ⟨rest, whole⟩ := Text.starts_with_iff.mp site.rooted
  have chars : path.toList = '/' :: rest.toList := by
    rw [whole, String.toList_append]
    rfl
  rw [chars]
  apply resolve_rooted base
  · intro ch member
    apply tab_or_newline_control
    apply site.printable
    rw [chars]
    exact List.mem_cons_of_mem _ member
  · intro second isHead
    obtain ⟨more, tail⟩ := List.head?_eq_some_iff.mp isHead
    exact on_site_single site (chars.trans (by rw [tail]))

theorem on_site_of_checks (rooted : Text.startsWith path "/" = true)
    (notDouble : Text.startsWith path "//" = false)
    (notBackslash : Text.startsWith path "/\\" = false)
    (printable : path.toList.any isControl = false) : OnSite path where
  rooted := rooted
  notDouble := by simp [notDouble]
  notBackslash := by simp [notBackslash]
  printable := fun ch member => by simpa using List.any_eq_false.mp printable ch member

/-- What the callback lets through. -/
theorem proxy_return_path_on_site (given : Option String) :
    OnSite (Proxy.safeReturnPath given) := by
  unfold Proxy.safeReturnPath
  cases given.map Text.trim with
  | none => exact root_on_site
  | some path =>
      dsimp only
      split_ifs with passes
      · simp only [Bool.and_eq_true, Bool.not_eq_true'] at passes
        obtain ⟨⟨⟨rooted, notDouble⟩, notBackslash⟩, printable⟩ := passes
        exact on_site_of_checks rooted notDouble notBackslash printable
      · exact root_on_site

/-- What the dashboard lets through. -/
theorem return_path_on_site (given : Option String) : OnSite (safeReturnPath given) := by
  unfold safeReturnPath
  cases given.map Text.trim with
  | none => exact root_on_site
  | some path =>
      dsimp only
      split_ifs with passes
      · simp only [Bool.and_eq_true, Bool.not_eq_true'] at passes
        obtain ⟨⟨⟨⟨rooted, notDouble⟩, notBackslash⟩, -⟩, printable⟩ := passes
        exact on_site_of_checks rooted notDouble notBackslash printable
      · exact root_on_site

end OnSite

structure Returnable (path : String) : Prop extends OnSite path where
  short : Text.byteLength path ≤ 2048
  trimmed : Text.trim path = path

section Returnable

variable {path : String}

theorem no_control (site : OnSite path) : (!path.toList.any isControl) = true := by
  have free : path.toList.any isControl = false := by
    rw [List.any_eq_false]
    intro ch member
    simp [site.printable ch member]
  simp [free]

theorem proxy_return_path_kept (returnable : Returnable path) :
    Proxy.safeReturnPath (some path) = path := by
  have checks : (Text.startsWith path "/" && !Text.startsWith path "//" &&
      !Text.startsWith path "/\\" && !path.toList.any isControl) = true := by
    have printable := no_control returnable.toOnSite
    simp [returnable.rooted, returnable.notDouble, returnable.notBackslash, printable]
  unfold Proxy.safeReturnPath
  rw [Option.map_some, returnable.trimmed]
  exact if_pos checks

theorem return_path_kept (returnable : Returnable path) : safeReturnPath (some path) = path := by
  have checks : (Text.startsWith path "/" && !Text.startsWith path "//" &&
      !Text.startsWith path "/\\" && Text.byteLength path ≤ maxReturnPathBytes &&
      !path.toList.any isControl) = true := by
    have printable := no_control returnable.toOnSite
    have short : Text.byteLength path ≤ maxReturnPathBytes := returnable.short
    simp [returnable.rooted, returnable.notDouble, returnable.notBackslash, printable, short]
  unfold safeReturnPath
  rw [Option.map_some, returnable.trimmed]
  exact if_pos checks

end Returnable

variable {lib : Libraries} {location : String}

theorem denied_no_location (member : ("Location", location) ∈ gateDenied.headers) : False := by
  simp [gateDenied, uncachedText] at member

theorem entered_location {token : String} {tls : Bool} {returnTo : Option String}
    (member : ("Location", location) ∈ (gateEntered token tls returnTo).headers) :
    location = Proxy.safeReturnPath returnTo := by
  simpa [gateEntered] using member

/-- The callback redirects to what it reads under `return`, if its filter lets that through. -/
theorem callback_location {host : String} {request : Request} {gate : RouteLoginGate}
    {response : Response} (atCallback : request.path = gateCallbackPath)
    (answered : (enforceLoginGate host request gate : Prog lib _).Yields (some (.respond response)))
    (sent : ("Location", location) ∈ response.headers) : location = Proxy.safeReturnPath
      (lastPair (lib.parseQuery (request.query.getD "")) "return") := by
  unfold enforceLoginGate at answered
  obtain ⟨config, -, answered⟩ := yields_bind.mp answered
  rw [if_pos atCallback] at answered
  obtain ⟨exchanged, exchange, same⟩ := yields_bind.mp answered
  have isResponse : response = exchanged := by simpa using same
  unfold exchangePass at exchange
  obtain ⟨user, -, exchange⟩ := yields_bind.mp exchange
  obtain ⟨allowed, -, exchange⟩ := yields_bind.mp exchange
  obtain ⟨token, -, exchange⟩ := yields_bind.mp exchange
  rw [yields_pure] at exchange
  rw [isResponse, exchange] at sent
  cases token with
  | none => exact (denied_no_location sent).elim
  | some token => exact entered_location sent

def loginAddress (config : ProxyConfig) (request : Request) : String :=
  let scheme := if request.tls then "https" else "http"
  let port := if request.tls then config.httpsPort else config.httpPort
  scheme ++ "://" ++ config.baseDomain ++ portSuffix scheme port ++ "/gate"

/-- Encoding and decoding of forms are inverse: pairs that are appended to the address are
what its query decodes to. -/
def InverseAt (lib : Libraries) (address : String) : Prop :=
  ∀ pairs url, lib.urlWithPairs address pairs = some url → lib.parseQuery (queryOf url) = pairs

/-- A visit that the gate stops, with the dashboard's page, the pass and the callback. -/
structure Visit (lib : Libraries) where
  config : ProxyConfig
  host : String
  request : Request
  login : String
  asked : loginUrl lib config host request = some login
  pageDecodes : InverseAt lib (loginAddress config request)
  posted : GatePassRequest
  posts : gatePage lib login = some posted
  authorization : Auth.Authorization
  redirect : String
  passed : (createGatePass lib authorization posted).run.Yields (.ok redirect)
  callbackDecodes : ∀ apps config target,
    findGatedTarget apps config (normalizeHost posted.host) = some target →
      InverseAt lib (target.origin ++ gateCallbackPath)
  callbackHost : String
  callback : Request
  atCallback : callback.path = gateCallbackPath
  follows : callback.query = some (queryOf redirect)
  gate : RouteLoginGate
  response : Response
  answered : (enforceLoginGate callbackHost callback gate : Prog lib _).Yields
    (some (.respond response))

def Visit.original (visit : Visit lib) : String := visit.request.pathAndQuery.getD "/"

theorem page_posts {login host path : String} {posted : GatePassRequest}
    (decoded : lib.parseQuery (queryOf login) = [("host", host), ("return", path)])
    (posts : gatePage lib login = some posted) : posted.returnTo = some path := by
  unfold gatePage at posts
  rw [decoded] at posts
  by_cases nameless : host.isEmpty = true
  · simp [onlyValue, nameless] at posts
  · simp [onlyValue, nameless] at posts
    simp [← posts]

theorem Visit.posted_return (visit : Visit lib) :
    visit.posted.returnTo = some visit.original := by
  have decoded := visit.pageDecodes _ _ visit.asked
  exact page_posts decoded visit.posts

/-- What arrives at the callback under `return`. -/
theorem Visit.arrives (visit : Visit lib) :
    lastPair (lib.parseQuery (visit.callback.query.getD "")) "return" =
      some (safeReturnPath (some visit.original)) := by
  obtain ⟨apps, config, target, pass, found, built⟩ := create_gate_pass_redirect visit.passed
  have decoded := visit.callbackDecodes apps config target found _ _ built
  rw [visit.follows, Option.getD_some, decoded, visit.posted_return]
  simp [lastPair]

theorem Visit.location_eq (visit : Visit lib) (returnable : Returnable visit.original)
    (sent : ("Location", location) ∈ visit.response.headers) : location = visit.original := by
  have read := callback_location visit.atCallback visit.answered sent
  rw [visit.arrives, return_path_kept returnable] at read
  rw [read, proxy_return_path_kept returnable]

/-- Whatever is given as return path to the dashboard or to the callback, what is passed on
stays on scheme, host and port of the origin it is resolved against; and a path that no filter
has a reason to change is the one the callback redirects to. -/
theorem gate_returns_on_site :
    (∀ authorization posted redirect origin,
      (createGatePass lib authorization posted).run.Yields (.ok redirect) →
      ∃ address pass path, lib.urlWithPairs address [("pass", pass), ("return", path)] =
        some redirect ∧ resolve origin path.toList = origin) ∧
    (∀ (host : String) (request : Request) (gate : RouteLoginGate) (response : Response)
      (location : String) (origin : Target), request.path = gateCallbackPath →
      (enforceLoginGate host request gate : Prog lib _).Yields (some (.respond response)) →
      ("Location", location) ∈ response.headers → resolve origin location.toList = origin) ∧
    ∀ visit : Visit lib, Returnable visit.original → ∀ location,
      ("Location", location) ∈ visit.response.headers → location = visit.original := by
  refine ⟨?_, ?_, ?_⟩
  · intro authorization posted redirect origin yields
    obtain ⟨apps, config, target, pass, -, built⟩ := create_gate_pass_redirect yields
    exact ⟨_, pass, _, built, on_site_resolves (return_path_on_site _) origin⟩
  · intro host request gate response location origin atCallback answered sent
    rw [callback_location atCallback answered sent]
    exact on_site_resolves (proxy_return_path_on_site _) origin
  · intro visit returnable location sent
    exact visit.location_eq returnable sent

def tablePairs : List (String × List (String × String) × String) :=
  [("https://adm.test/gate", [("host", "app.test"), ("return", "/x?y=1")],
      "https://adm.test/gate?host=app.test&return=%2Fx%3Fy%3D1"),
    ("https://app.test/__containr/gate", [("pass", "p"), ("return", "/x?y=1")],
      "https://app.test/__containr/gate?pass=p&return=%2Fx%3Fy%3D1")]

/-- The crates on the inputs of one visit. -/
def tableLibraries : Libraries where
  toLowercase := Text.toAsciiLowercase
  decodeBase64 _ := none
  verifyPassword _ _ := false
  decodeToken _ token _ :=
    if token = "p" then some ⟨⟨1⟩, "app.test", "gate_pass", 0, 60⟩ else none
  encodeToken _ claims := some (if claims.kind = "gate_pass" then "p" else "s")
  parseQuery query := ((tablePairs.find? fun row => queryOf row.2.2 = query).map fun row =>
    row.2.1).getD []
  urlWithPairs address pairs := (tablePairs.find? fun row =>
    row.1 = address && row.2.1 = pairs).map fun row => row.2.2

theorem table_inverse (address : String) : InverseAt tableLibraries address := by
  intro pairs url built
  obtain ⟨row, found, isUrl⟩ := Option.map_eq_some_iff.mp built
  have member := List.mem_of_find?_eq_some found
  have matched := List.find?_some found
  simp only [Bool.and_eq_true, decide_eq_true_eq] at matched
  have decodes : ∀ row ∈ tablePairs, tableLibraries.parseQuery (queryOf row.2.2) = row.2.1 := by
    decide +kernel
  rw [← isUrl, decodes row member, matched.2]

def tableConfig : ProxyConfig := ⟨"secret", "adm.test", 80, 443, none, "", ""⟩

def gatedApp : App where
  id := ⟨3⟩
  name := "app"
  githubUrl := ""
  branch := "main"
  domains := []
  envVars := []
  autoDeployEnabled := false
  autoDeployWatchPaths := []
  autoDeployCleanupStaleDeployments := false
  deployWebhookToken := none
  port := 80
  services := [{ ContainerService.new ⟨4⟩ 0 ⟨3⟩ "web" "nginx" 80 with
    serviceType := .webService
    domains := ["app.test"]
    loginGate := some ⟨.owner⟩ }]
  rolloutStrategy := .stopFirst
  ownerId := ⟨1⟩
  createdAt := 0
  updatedAt := 0

def tableAnswers : (op : GateOp) → op.Answer
  | .readConfig => tableConfig
  | .validateToken _ _ => Except.ok ⟨1⟩
  | .listApps => Except.ok [gatedApp]
  | .getUser _ => Except.ok none
  | .utcNow => (0 : Nat)

theorem table_passed : (createGatePass tableLibraries (some "Bearer t")
    ⟨"app.test", some "/x?y=1"⟩).run.evaluate tableAnswers =
      Except.ok "https://app.test/__containr/gate?pass=p&return=%2Fx%3Fy%3D1" := by
  decide +kernel

def tableRequest (path query : String) : Request :=
  ⟨"GET", some "app.test", path, some query, some (path ++ "?" ++ query), [], true⟩

def tableCallback : Request :=
  tableRequest gateCallbackPath (queryOf "https://app.test/__containr/gate?pass=p&return=%2Fx%3Fy%3D1")

theorem table_answered : (enforceLoginGate "app.test" tableCallback ⟨⟨1⟩, .owner⟩ :
    Prog tableLibraries _).Yields (some (.respond (gateEntered "s" true (some "/x?y=1")))) := by
  have pairs : tableLibraries.parseQuery (tableCallback.query.getD "") =
      [("pass", "p"), ("return", "/x?y=1")] := by decide +kernel
  have verified : verifyGateToken tableLibraries "secret" "p" "app.test" .pass 0 = some ⟨1⟩ := by
    decide +kernel
  have issued : issueGateToken tableLibraries "secret" ⟨1⟩ "app.test" .session 0 = some "s" := by
    decide +kernel
  have exchanged : (exchangePass "secret" "app.test" tableCallback ⟨⟨1⟩, .owner⟩ :
      Prog tableLibraries _).Yields (gateEntered "s" true (some "/x?y=1")) := by
    unfold exchangePass
    rw [pairs]
    apply yields_bind.mpr
    exact ⟨some ⟨1⟩, yields_bind.mpr ⟨(0 : Nat), yields_perform _ _,
        yields_pure.mpr verified.symm⟩,
      yields_bind.mpr ⟨some ⟨1⟩, yields_bind.mpr ⟨true, yields_pure.mpr rfl,
        yields_pure.mpr rfl⟩,
      yields_bind.mpr ⟨some "s", yields_bind.mpr ⟨(0 : Nat), yields_perform _ _,
        yields_pure.mpr issued.symm⟩, yields_pure.mpr rfl⟩⟩⟩
  unfold enforceLoginGate
  apply yields_bind.mpr
  refine ⟨tableConfig, yields_perform _ _, ?_⟩
  have atCallback : tableCallback.path = gateCallbackPath := rfl
  rw [if_pos atCallback]
  exact yields_bind.mpr ⟨_, exchanged, yields_pure.mpr rfl⟩

def tableVisit : Visit tableLibraries where
  config := tableConfig
  host := "app.test"
  request := tableRequest "/x" "y=1"
  login := "https://adm.test/gate?host=app.test&return=%2Fx%3Fy%3D1"
  asked := by decide +kernel
  pageDecodes := table_inverse _
  posted := ⟨"app.test", some "/x?y=1"⟩
  posts := by decide +kernel
  authorization := some "Bearer t"
  redirect := "https://app.test/__containr/gate?pass=p&return=%2Fx%3Fy%3D1"
  passed := by
    rw [← table_passed]
    exact @yields_evaluate GateFace _ tableAnswers _
  callbackDecodes _ _ _ _ := table_inverse _
  callbackHost := "app.test"
  callback := tableCallback
  atCallback := rfl
  follows := rfl
  gate := ⟨⟨1⟩, .owner⟩
  response := gateEntered "s" true (some "/x?y=1")
  answered := table_answered

theorem table_returnable : Returnable tableVisit.original where
  rooted := by decide +kernel
  notDouble := by decide +kernel
  notBackslash := by decide +kernel
  printable := Text.every_char (by decide +kernel)
  short := by decide +kernel
  trimmed := by decide +kernel

/-- The visitor of `/x?y=1` gets a pass and is sent back there, on the same host. -/
theorem table_visit_returns :
    (∃ address pass path, tableLibraries.urlWithPairs address [("pass", pass), ("return", path)] =
      some tableVisit.redirect ∧ resolve ⟨"https".toList, some "app.test".toList⟩ path.toList =
        ⟨"https".toList, some "app.test".toList⟩) ∧
    ("Location", tableVisit.original) ∈ tableVisit.response.headers ∧
    resolve ⟨"https".toList, some "app.test".toList⟩ tableVisit.original.toList =
      ⟨"https".toList, some "app.test".toList⟩ := by
  have sent : ("Location", Proxy.safeReturnPath (some "/x?y=1")) ∈ tableVisit.response.headers :=
    List.mem_cons_self
  obtain ⟨passes, stays, returns⟩ := @gate_returns_on_site tableLibraries
  have same := returns tableVisit table_returnable _ sent
  rw [same] at sent
  exact ⟨passes _ _ _ _ tableVisit.passed, sent,
    stays _ _ _ _ _ _ tableVisit.atCallback tableVisit.answered sent⟩

end Containr.Api.GatePass
