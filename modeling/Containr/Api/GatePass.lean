import Containr.Auth.Users
import Containr.Effect.Yields
import Containr.Proxy.Filter

/-!
# Passes of the login gate, `containr-api/src/handlers/gate.rs`

The dashboard's half of the gate: a signed-in user gets a pass for a gated domain and the
address to go on to. The page that asks for it (`web/src/pages/auth/Gate.tsx`) reads the
domain and the path from its own address. The configuration is read twice, and each read
is a call.
-/

namespace Containr.Api.GatePass

open Containr.Effect Containr.Effect.Program Containr.Proxy

inductive GateOp where
  | readConfig
  | validateToken (token secret : String)
  | listApps
  | getUser (id : Uuid)
  | utcNow

def GateOp.Answer : GateOp → Type
  | .readConfig => ProxyConfig
  | .validateToken _ _ => Except String Uuid
  | .listApps => Except String (List App)
  | .getUser _ => Except String (Option Auth.User)
  | .utcNow => Time

abbrev GateFace : Interface := ⟨GateOp, GateOp.Answer⟩

abbrev GateHandler (Value : Type) : Type := ExceptT ApiError (Program GateFace) Value

def GateOp.call (op : GateOp) : Program GateFace op.Answer := @perform GateFace op

def orInternal {Value : Type} (program : Program GateFace (Except String Value)) :
    GateHandler Value :=
  ExceptT.mk (program.bind fun result => .pure (match result with
    | .ok value => .ok value
    | .error _ => .error internalError))

structure GatePassRequest where
  host : String
  returnTo : Option String
deriving DecidableEq, Repr

structure GatedTarget where
  ownerId : Uuid
  scope : LoginGateScope
  origin : String
deriving DecidableEq, Repr

def normalizeHost (host : String) : String :=
  Text.toAsciiLowercase (Text.trimEndMatches (Text.trim host) '.')

/-- `none`: the service is not served on this host. A generated domain has no certificate. -/
def servedOverHttps (config : ProxyConfig) (host : String) (service : ContainerService) :
    Option Bool :=
  match service.customDomains.find? fun domain => normalizeHost domain = host with
  | some domain => some (service.domainHttpsEnabled domain)
  | none =>
      if (defaultServiceDomain service.id config.baseDomain).any fun domain =>
          normalizeHost domain = host then some false
      else none

def gatedTarget (config : ProxyConfig) (host : String) (app : App) (service : ContainerService) :
    Option GatedTarget :=
  service.loginGate.bind fun gate =>
    if !service.isPublicHttp then none
    else (servedOverHttps config host service).map fun https =>
      let scheme := if https then "https" else "http"
      let port := if https then config.httpsPort else config.httpPort
      ⟨app.ownerId, gate.scope, scheme ++ "://" ++ host ++ portSuffix scheme port⟩

def findGatedTarget (apps : List App) (config : ProxyConfig) (host : String) :
    Option GatedTarget :=
  apps.findSome? fun app => app.services.findSome? (gatedTarget config host app)

def maxReturnPathBytes : Nat := 2048

def safeReturnPath (path : Option String) : String :=
  match path.map Text.trim with
  | some path =>
      if Text.startsWith path "/" && !Text.startsWith path "//" && !Text.startsWith path "/\\" &&
          Text.byteLength path ≤ maxReturnPathBytes &&
          !path.toList.any (fun ch => ch.toNat < 32 || (127 ≤ ch.toNat && ch.toNat < 160)) then path
      else "/"
  | none => "/"

def getUserId (authorization : Auth.Authorization) : GateHandler Uuid := do
  let config : ProxyConfig ← GateOp.readConfig.call
  match authorization.bind fun header => Text.stripFront header "Bearer " with
  | none => throw ⟨401, "not logged in"⟩
  | some token =>
      match ← (GateOp.validateToken token config.jwtSecret).call with
      | Except.error message => throw ⟨401, message⟩
      | Except.ok id => return id

def targetAllows (target : GatedTarget) (userId : Uuid) : GateHandler Bool :=
  match target.scope with
  | .owner => return target.ownerId = userId
  | .allUsers => do
      let user ← orInternal (GateOp.getUser userId).call
      return user.isSome

/-- The address to go on to. -/
def redirectUrl (lib : Libraries) (target : GatedTarget) (pass : String)
    (returnTo : Option String) : Option String :=
  lib.urlWithPairs (target.origin ++ gateCallbackPath)
    [("pass", pass), ("return", safeReturnPath returnTo)]

def issuePass (lib : Libraries) (config : ProxyConfig) (userId : Uuid) (target : GatedTarget)
    (host : String) (returnTo : Option String) : GateHandler String := do
  let now : Time ← GateOp.utcNow.call
  match issueGateToken lib config.jwtSecret userId host .pass now with
  | none => throw internalError
  | some pass =>
      match redirectUrl lib target pass returnTo with
      | none => throw internalError
      | some url => return url

def createGatePass (lib : Libraries) (authorization : Auth.Authorization)
    (request : GatePassRequest) : GateHandler String := do
  let userId ← getUserId authorization
  let config : ProxyConfig ← GateOp.readConfig.call
  let host := normalizeHost request.host
  let apps ← orInternal GateOp.listApps.call
  match findGatedTarget apps config host with
  | none => throw ⟨404, "this domain has no containr login"⟩
  | some target =>
      let allowed ← targetAllows target userId
      if !allowed then throw ⟨403, "only the owner of this service can open it"⟩
      else issuePass lib config userId target host request.returnTo

/-- What stands behind the first `?`, up to a fragment. -/
def queryOf (url : String) : String :=
  String.ofList (((url.toList.dropWhile (· ≠ '?')).drop 1).takeWhile (· ≠ '#'))

/-- `typeof params[key] === "string"`: a key that is given twice has a list. -/
def onlyValue (pairs : List (String × String)) (key : String) : Option String :=
  match pairs.filter fun pair => pair.1 = key with
  | [(_, value)] => some value
  | _ => none

def gatePage (lib : Libraries) (url : String) : Option GatePassRequest :=
  let pairs := lib.parseQuery (queryOf url)
  let host := (onlyValue pairs "host").getD ""
  if host.isEmpty then none else some ⟨host, some ((onlyValue pairs "return").getD "/")⟩

variable {lib : Libraries}

/-- A pass is answered with the target's callback and the path that was let through. -/
theorem create_gate_pass_redirect {authorization : Auth.Authorization} {request : GatePassRequest}
    {url : String} (yields : (createGatePass lib authorization request).run.Yields (.ok url)) :
    ∃ apps config target pass,
      findGatedTarget apps config (normalizeHost request.host) = some target ∧
      redirectUrl lib target pass request.returnTo = some url := by
  unfold createGatePass at yields
  obtain ⟨userId, -, yields⟩ := yields_ok_bind.mp yields
  obtain ⟨config, -, yields⟩ := yields_lift_bind.mp yields
  obtain ⟨apps, -, yields⟩ := yields_ok_bind.mp yields
  cases found : findGatedTarget apps config (normalizeHost request.host) with
  | none =>
      simp only [found, yields_run_throw, reduceCtorEq] at yields
  | some target =>
      simp only [found] at yields
      obtain ⟨allowed, -, yields⟩ := yields_ok_bind.mp yields
      cases allowed with
      | false => simp at yields
      | true =>
          have issued : (issuePass lib config userId target (normalizeHost request.host)
            request.returnTo).run.Yields (.ok url) := yields
          unfold issuePass at issued
          obtain ⟨now, -, issued⟩ := yields_lift_bind.mp issued
          cases signed : issueGateToken lib config.jwtSecret userId
              (normalizeHost request.host) .pass now with
          | none => simp [signed] at issued
          | some pass =>
              simp only [signed] at issued
              cases built : redirectUrl lib target pass request.returnTo with
              | none => simp [built] at issued
              | some address =>
                  simp only [built, yields_run_pure, Except.ok.injEq] at issued
                  exact ⟨apps, config, target, pass, found, by rw [built, issued]⟩

end Containr.Api.GatePass
