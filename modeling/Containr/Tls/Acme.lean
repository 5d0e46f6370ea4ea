import Containr.Effect.Map
import Containr.Effect.Pool
import Containr.Models

/-!
# Certificates

`containr-proxy/src/acme.rs`, the certificate task of `containr/src/main.rs`, the handshake
resolver of `pingora_proxy.rs` and `reissue_certificate` of
`containr-api/src/handlers/certificates.rs`. One task issues certificates; handshakes,
reissues and requests run beside it. What the certificate authority, DNS, the configuration
and the apps answer is chosen outside. The account of the authority is one call, and a
channel slot is taken and given back by a call of its own.
-/

namespace Containr.Tls

open Containr.Effect

structure Libraries where
  toLowercase : String → String
  /-- `x509_parser`, on the first certificate of a chain. -/
  parseCertificateExpiry : String → Option Time
  /-- A chain and a key that `rustls` has accepted. -/
  CertifiedKey : Type
  certifiedKey : (certPem keyPem : String) → Option CertifiedKey

structure Certificate where
  id : Uuid
  domain : String
  certPem : String
  keyPem : String
  expiresAt : Time
  createdAt : Time
deriving DecidableEq, Repr

/-- The configured names a certificate may be asked for. -/
structure Hosts where
  baseDomain : String
  rustfsPublicHostname : Option String
  externalRoutes : List String
deriving DecidableEq, Repr

structure Order where
  number : Nat
deriving DecidableEq, Repr

inductive Authorization where
  | valid
  | pending (challenge : Option (String × String))
deriving DecidableEq, Repr

inductive OrderStatus where
  | pending | ready | processing | valid | invalid
deriving DecidableEq, Repr

structure CachedCertificate (lib : Libraries) where
  id : Uuid
  expiresAt : Time
  key : lib.CertifiedKey

/-- What ended the wait of the certificate task. -/
inductive Wake where
  | request (domain : Option String)
  | tick
deriving DecidableEq, Repr

variable {lib : Libraries}

inductive CertOp (lib : Libraries) where
  | select (receives renews : Bool)
  | readConfig
  | listApps
  | getAppByDomain (domain : String)
  | getCertificateByDomain (domain : String)
  | saveCertificate (certificate : Certificate)
  | deleteCertificateByDomain (domain : String)
  | utcNow
  | newUuid
  | getOrCreateAccount
  | newOrder (domain : String)
  | authorization (order : Order) (index : Nat)
  | setReady (order : Order) (token : String)
  | refresh (order : Order)
  | finalize (order : Order)
  | downloadCertificate (order : Order)
  | addChallenge (token keyAuth : String)
  | removeChallenge (token : String)
  | cached (domain : String)
  | insertCached (domain : String) (entry : CachedCertificate lib)
  | removeCached (domain : String)
  | lookupHost (domain : String)
  | tryReserve
  | release
  | send (domain : String)
  | trySend (domain : String)

/-- A new order comes with the number of its authorizations. -/
def CertOp.Answer : CertOp lib → Type
  | .select _ _ => Wake
  | .readConfig => Hosts
  | .listApps => Except String (List App)
  | .getAppByDomain _ => Except String (Option App)
  | .getCertificateByDomain _ => Except String (Option Certificate)
  | .saveCertificate _ | .deleteCertificateByDomain _ | .getOrCreateAccount | .setReady _ _ =>
      Except String Unit
  | .utcNow => Time
  | .newUuid => Uuid
  | .newOrder _ => Except String (Order × Nat)
  | .authorization _ _ => Except String Authorization
  | .refresh _ => Except String OrderStatus
  | .finalize _ => Except String String
  | .downloadCertificate _ => Except String (Option String)
  | .addChallenge _ _ | .removeChallenge _ | .insertCached _ _ | .removeCached _ | .release |
      .send _ | .trySend _ => Unit
  | .cached _ => Option (CachedCertificate lib)
  | .lookupHost _ | .tryReserve => Bool

abbrev CertFace (lib : Libraries) : Interface := ⟨CertOp lib, CertOp.Answer⟩

abbrev Prog (lib : Libraries) (Value : Type) : Type := Program (CertFace lib) Value

abbrev Fallible (lib : Libraries) (Value : Type) : Type := ExceptT String (Program (CertFace lib)) Value

def ask (op : CertOp lib) : Prog lib op.Answer := @Program.perform (CertFace lib) op

def utcNow (lib : Libraries) : Prog lib Time := ask .utcNow

def readConfig (lib : Libraries) : Prog lib Hosts := ask .readConfig

def day : Time := 24 * 60 * 60

def correctExpiry (certificate : Certificate) : Fallible lib Certificate := do
  match lib.parseCertificateExpiry certificate.certPem with
  | some expiresAt =>
      if certificate.expiresAt ≠ expiresAt then
        let corrected := { certificate with expiresAt := expiresAt }
        ExceptT.mk (ask (.saveCertificate corrected))
        return corrected
      else return certificate
  | none => return certificate

/-- `authorizations.next()`: the tokens that were announced survive an error. -/
def announce (order : Order) (tokens : List String) (index : Nat) :
    Prog lib (Except String Unit × List String) := do
  match ← ask (.authorization order index) with
  | .error error => return (.error error, tokens)
  | .ok .valid => return (.ok (), tokens)
  | .ok (.pending none) => return (.error "http-01 challenge not found", tokens)
  | .ok (.pending (some (token, keyAuth))) =>
      ask (.addChallenge token keyAuth)
      return (← ask (.setReady order token), tokens ++ [token])

/-- The order is looked at again until it has the status, `remaining` times at most. -/
def awaitStatus (order : Order) (wanted : OrderStatus) (timeout : String) :
    Nat → Fallible lib Unit
  | 0 => throw timeout
  | remaining + 1 => do
      let status ← ExceptT.mk (ask (.refresh order))
      if status = wanted then return
      else if status = .invalid then throw "order became invalid"
      else awaitStatus order wanted timeout remaining

def completeIssuance (order : Order) : Fallible lib (String × String) := do
  awaitStatus order .ready "order validation timeout" 31
  let privateKeyPem ← ExceptT.mk (ask (.finalize order))
  awaitStatus order .valid "certificate issuance timeout" 31
  match ← ExceptT.mk (ask (.downloadCertificate order)) with
  | some certChain => return (certChain, privateKeyPem)
  | none => throw "certificate not available"

def completeOrder (domain : String) : Prog lib (Except String (String × String) × List String) := do
  match ← ask (.newOrder domain) with
  | .error error => return (.error error, [])
  | .ok (order, authorizations) =>
      match ← Program.iterate (announce order) (List.range authorizations) [] with
      | (.error error, tokens) => return (.error error, tokens)
      | (.ok (), tokens) => return (← (completeIssuance order).run, tokens)

def removeChallenges (tokens : List String) : Prog lib Unit :=
  Program.forAll (fun token => ask (.removeChallenge token)) tokens

def issuedExpiry (certChain : String) : Prog lib Time :=
  match lib.parseCertificateExpiry certChain with
  | some expiresAt => return expiresAt
  | none => return (← utcNow lib) + 90 * day

def requestCertificate (domain : String) : Fallible lib Certificate := do
  ExceptT.mk (ask .getOrCreateAccount)
  let (issued, tokens) ← liftM (@completeOrder lib domain)
  liftM (@removeChallenges lib tokens)
  let (certChain, privateKeyPem) ← ExceptT.mk (.pure issued)
  let expiresAt ← liftM (@issuedExpiry lib certChain)
  let id : Uuid ← liftM (@ask lib .newUuid)
  let createdAt ← liftM (utcNow lib)
  let existing ← ExceptT.mk (ask (.getCertificateByDomain domain))
  let certificate : Certificate :=
    ⟨(existing.map Certificate.id).getD id, domain, certChain, privateKeyPem, expiresAt, createdAt⟩
  ExceptT.mk (ask (.saveCertificate certificate))
  return certificate

def ensureCertificate (domain : String) : Fallible lib Certificate := do
  match ← ExceptT.mk (ask (.getCertificateByDomain domain)) with
  | none => requestCertificate domain
  | some stored =>
      let certificate ← correctExpiry stored
      let now ← liftM (utcNow lib)
      if certificate.expiresAt > now + 30 * day then return certificate
      else requestCertificate domain

def sortedSet (domains : List String) : List String :=
  domains.dedup.insertionSort fun left right => left.toList ≤ right.toList

def storageHost (hosts : Hosts) : Option String :=
  ((hosts.rustfsPublicHostname.map Text.trim).filter fun name => !name.isEmpty).map fun name =>
    Text.trimEndMatches
      (Text.trimStartMatches (Text.trimStartMatches name "https://") "http://") '/'

def managedCertificateDomains (app : App) : List String :=
  app.services.foldl (fun domains service =>
    service.httpsDomains.foldl (fun domains domain =>
      if domains.contains domain then domains else domains ++ [domain]) domains) []

def managedDomains (lib : Libraries) (hosts : Hosts) (apps : List App) : List String :=
  let listed := [Text.trim hosts.baseDomain] ++ (storageHost hosts).toList ++
    hosts.externalRoutes.map Text.trim ++
    apps.flatMap fun app => (managedCertificateDomains app).map Text.trim
  sortedSet ((listed.map lib.toLowercase).filter fun domain => !domain.isEmpty)

def collectManagedCertificateDomains : Fallible lib (List String) := do
  let hosts ← liftM (readConfig lib)
  let apps ← ExceptT.mk (ask .listApps)
  return managedDomains lib hosts apps

/-- A failed renewal is only logged. -/
def renewAll (lib : Libraries) (domains : List String) : Prog lib Unit :=
  Program.forAll (fun domain => (ensureCertificate domain).run.bind fun _ => .pure ()) domains

def renewManagedCertificates : Fallible lib Unit := do
  let domains ← collectManagedCertificateDomains
  liftM (renewAll lib domains)

def storageOrDashboardDomainAllowed (domain : String) : Prog lib Bool := do
  let hosts ← readConfig lib
  let normalized := lib.toLowercase (Text.trim domain)
  return normalized = lib.toLowercase (Text.trim hosts.baseDomain) ||
    (storageHost hosts).any (Text.eqIgnoreAsciiCase · normalized)

def issuanceAllowed (domain : String) : Prog lib Bool := do
  match ← ask (.getAppByDomain domain) with
  | .ok (some _) => return true
  | .ok none => storageOrDashboardDomainAllowed domain
  | .error _ => return false

/-- The locals of the loop. `in_flight` is empty whenever a request is looked at: the task
waits for each issuance. -/
structure Issuer where
  requestsClosed : Bool
  inFlight : List String
deriving DecidableEq, Repr

def handleRequest (enabled : Bool) (issuer : Issuer) (domain : String) : Prog lib Issuer := do
  if domain.isEmpty || !enabled then return issuer
  if !(← issuanceAllowed domain) then return issuer
  if issuer.inFlight.contains domain then return issuer
  let flying := { issuer with inFlight := domain :: issuer.inFlight }
  let _ ← (ensureCertificate domain).run
  return { flying with inFlight := flying.inFlight.filter (· ≠ domain) }

def issueLoop (enabled : Bool) : Nat → Issuer → Prog lib Unit
  | 0, _ => .pure ()
  | rounds + 1, issuer => do
      match ← ask (.select (!issuer.requestsClosed) enabled) with
      | .request none =>
          if enabled then issueLoop enabled rounds { issuer with requestsClosed := true }
          else return
      | .request (some domain) =>
          issueLoop enabled rounds (← handleRequest enabled issuer domain)
      | .tick =>
          let _ ← renewManagedCertificates.run
          issueLoop enabled rounds issuer

def certificateTask (enabled : Bool) (rounds : Nat) : Prog lib Unit := do
  if enabled then
    let _ ← renewManagedCertificates.run
  issueLoop enabled rounds ⟨false, []⟩

def storedKey (domain : String) (certificate : Certificate) :
    Prog lib (Option lib.CertifiedKey) :=
  match lib.certifiedKey certificate.certPem certificate.keyPem with
  | none => return none
  | some key => do
      ask (.insertCached domain ⟨certificate.id, certificate.expiresAt, key⟩)
      return some key

def cachedKey (domain : String) (certificate : Certificate) :
    Prog lib (Option lib.CertifiedKey) := do
  match ← ask (.cached domain) with
  | some cached =>
      if cached.id = certificate.id ∧ cached.expiresAt = certificate.expiresAt then
        return some cached.key
      else storedKey domain certificate
  | none => storedKey domain certificate

def forgetKey (domain : String) : Prog lib (Option lib.CertifiedKey) := do
  ask (.removeCached domain)
  return none

def loadCert (domain : String) : Prog lib (Option lib.CertifiedKey) := do
  match ← ask (.getCertificateByDomain domain) with
  | .ok (some certificate) =>
      let now ← utcNow lib
      if certificate.expiresAt > now then cachedKey domain certificate else forgetKey domain
  | _ => forgetKey domain

def resolve (serverName : Option String) : Prog lib (Option lib.CertifiedKey) :=
  match serverName with
  | none => return none
  | some domain => loadCert (Text.toAsciiLowercase domain)

def reserveSlots (lib : Libraries) : Nat → Nat → Prog lib Bool
  | 0, _ => return true
  | wanted + 1, held => do
      let free : Bool ← ask .tryReserve
      if free then reserveSlots lib wanted (held + 1)
      else
        Program.forAll (fun _ => ask .release) (List.range held)
        return false

inductive ReissueError where
  | noDomains | notOnService | dnsFailed (domain : String) | unavailable
deriving DecidableEq, Repr

def reissuedDomains (lib : Libraries) (service : ContainerService) (requested : Option String) :
    Except ReissueError (List String) :=
  let domains := service.httpsDomains
  if domains.isEmpty then .error .noDomains
  else match requested with
    | none => .ok domains
    | some domain =>
        let normalized := lib.toLowercase (Text.trim domain)
        if normalized.isEmpty || !domains.contains normalized then .error .notOnService
        else .ok [normalized]

def checkDns (lib : Libraries) (domains : List String) : Prog lib (Except ReissueError Unit) :=
  Program.forEach (fun domain => do
    let found : Bool ← ask (.lookupHost domain)
    return if found then .ok () else .error (.dnsFailed domain)) domains

/-- Deleted first, so that the task does not find the old certificate. -/
def requeueAll (lib : Libraries) (domains : List String) : Prog lib Unit :=
  Program.forAll (fun domain => do
    let _ ← ask (.deleteCertificateByDomain domain)
    ask (.send domain)) domains

/-- `reissue_certificate` for an owned service. A failed deletion is only logged. -/
def reissueCertificate (service : ContainerService) (requested : Option String) :
    ExceptT ReissueError (Program (CertFace lib)) (List String) := do
  let domains ← ExceptT.mk (.pure (reissuedDomains lib service requested))
  ExceptT.mk (checkDns lib domains)
  let reserved ← liftM (reserveSlots lib domains.length 0)
  if reserved then
    liftM (requeueAll lib domains)
    return domains
  else throw .unavailable

inductive Task where
  | issuer (enabled : Bool) (rounds : Nat)
  | handshake (serverName : Option String)
  | reissue (service : ContainerService) (requested : Option String)
  | requests (domains : List String)

def Task.program (lib : Libraries) : Task → Prog lib (Option lib.CertifiedKey)
  | .issuer enabled rounds => (certificateTask enabled rounds).bind fun _ => .pure none
  | .handshake serverName => resolve serverName
  | .reissue service requested =>
      (reissueCertificate service requested).run.bind fun _ => .pure none
  | .requests domains =>
      (Program.forAll (fun domain => ask (.trySend domain)) domains).bind fun _ => .pure none

/-- The rows, the tokens the proxy serves, the parsed certificates and the channel; `orders`
counts the handles that have been given out. -/
structure CertState (lib : Libraries) where
  certificates : List Certificate
  challenges : Map String String
  cache : Map String (CachedCertificate lib)
  queue : List String
  reserved : Nat
  orders : Nat

/-- `ON CONFLICT(domain) DO UPDATE`: the id is not in the update list. -/
def saveRow (certificate : Certificate) (rows : List Certificate) : Option (List Certificate) :=
  if rows.any (·.domain = certificate.domain) then
    some (rows.map fun row =>
      if row.domain = certificate.domain then { certificate with id := row.id } else row)
  else if rows.any (·.id = certificate.id) then none
  else some (rows ++ [certificate])

def channelSize : Nat := 64

def CertState.full (state : CertState lib) : Bool :=
  channelSize ≤ state.queue.length + state.reserved

/-- What the outside world decides at a call. -/
def CertOp.Choice : CertOp lib → Type
  | .select _ _ | .lookupHost _ => Bool
  | .readConfig => Hosts
  | .listApps => Except String (List App)
  | .getAppByDomain _ => Except String (Option App)
  | .getCertificateByDomain _ | .saveCertificate _ | .deleteCertificateByDomain _ => Option String
  | .utcNow => Time
  | .newUuid => Uuid
  | .getOrCreateAccount | .setReady _ _ => Except String Unit
  | .newOrder _ => Except String Nat
  | .authorization _ _ => Except String Authorization
  | .refresh _ => Except String OrderStatus
  | .finalize _ => Except String String
  | .downloadCertificate _ => Except String (Option String)
  | _ => Unit

def CertOp.exec : (op : CertOp lib) → op.Choice → CertState lib → op.Answer × CertState lib
  | .select _ _, true, state => match state.queue with
      | [] => (.request none, state)
      | domain :: rest => (.request (some domain), { state with queue := rest })
  | .select _ _, false, state => (.tick, state)
  | .readConfig, hosts, state => (hosts, state)
  | .listApps, apps, state => (apps, state)
  | .getAppByDomain _, found, state => (found, state)
  | .getCertificateByDomain domain, none, state =>
      (.ok (lookup (·.domain) domain state.certificates), state)
  | .getCertificateByDomain _, some message, state => (.error message, state)
  | .saveCertificate certificate, none, state => match saveRow certificate state.certificates with
      | some rows => (.ok (), { state with certificates := rows })
      | none => (.error "UNIQUE constraint failed", state)
  | .saveCertificate _, some message, state => (.error message, state)
  | .deleteCertificateByDomain domain, none, state =>
      (.ok (), { state with certificates := state.certificates.filter (·.domain ≠ domain) })
  | .deleteCertificateByDomain _, some message, state => (.error message, state)
  | .utcNow, now, state => (now, state)
  | .newUuid, id, state => (id, state)
  | .getOrCreateAccount, result, state => (result, state)
  | .newOrder _, .error message, state => (.error message, state)
  | .newOrder _, .ok count, state =>
      (.ok (⟨state.orders⟩, count), { state with orders := state.orders + 1 })
  | .authorization _ _, answer, state => (answer, state)
  | .setReady _ _, result, state => (result, state)
  | .refresh _, status, state => (status, state)
  | .finalize _, key, state => (key, state)
  | .downloadCertificate _, chain, state => (chain, state)
  | .addChallenge token keyAuth, _, state =>
      ((), { state with challenges := state.challenges.insert token keyAuth })
  | .removeChallenge token, _, state =>
      ((), { state with challenges := state.challenges.remove token })
  | .cached domain, _, state => (state.cache.get domain, state)
  | .insertCached domain entry, _, state =>
      ((), { state with cache := state.cache.insert domain entry })
  | .removeCached domain, _, state => ((), { state with cache := state.cache.remove domain })
  | .lookupHost _, found, state => (found, state)
  | .tryReserve, _, state =>
      (!state.full, if state.full then state else { state with reserved := state.reserved + 1 })
  | .release, _, state => ((), { state with reserved := state.reserved - 1 })
  | .send domain, _, state =>
      ((), { state with queue := state.queue ++ [domain], reserved := state.reserved - 1 })
  | .trySend domain, _, state =>
      ((), if state.full then state else { state with queue := state.queue ++ [domain] })

/-- A disabled branch of `select!` is not taken. The task never disables both. -/
def CertOp.Admits : (op : CertOp lib) → op.Choice → CertState lib → Prop
  | .select receives _, true, _ => receives = true
  | .select receives renews, false, _ => receives = true → renews = true
  | _, _, _ => True

def authority (lib : Libraries) : Machine (CertFace lib) (CertState lib) :=
  ⟨CertOp.Choice, CertOp.exec, CertOp.Admits⟩

end Containr.Tls
