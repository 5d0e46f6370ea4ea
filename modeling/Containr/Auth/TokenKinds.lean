import Containr.Auth.Users
import Containr.Proxy.Filter

/-!
# The tokens of `containr-api/src/auth.rs` and `containr-common/src/access_gate.rs`

Login tokens, api keys, exec tokens and the two gate tokens are signed with one secret
and one algorithm. A verifier reads the claims it names and ignores the others, so two
kinds are told apart by the claims they carry and by the texts each verifier compares.
The JWT library and the parser of identifiers are parameters.
-/

namespace Containr.Auth

open Containr.Effect
open Containr.Proxy (GateTokenKind GateClaims Libraries)

inductive ClaimValue where
  | text (value : String)
  | number (value : Int)
deriving DecidableEq, Repr

abbrev Payload : Type := List (String × ClaimValue)

/-- `Validation` with HS256. -/
structure Validation where
  leeway : Int
deriving DecidableEq, Repr

/-- `Validation::default()`. -/
def Validation.default : Validation := ⟨60⟩

structure JwtCrate where
  /-- `encode` with HS256. -/
  encode : Payload → (secret : String) → Except String String
  /-- The payload of `decode`, before the claims are read from it. -/
  decode : (token secret : String) → Validation → (now : Int) → Except String Payload
  /-- `Uuid::parse_str`. -/
  parseUuid : String → Option Uuid

/-- What the library promises. -/
structure JwtCrate.Documented (jwt : JwtCrate) : Prop where
  /-- A token decodes only to a payload it was made from, with the same secret. -/
  signed : ∀ token secret validation now payload,
    jwt.decode token secret validation now = .ok payload → jwt.encode payload secret = .ok token
  /-- A token carries its payload. -/
  carries : ∀ token payload secret payload' secret', jwt.encode payload secret = .ok token →
    jwt.encode payload' secret' = .ok token → payload = payload'
  /-- The claim `exp` is required and checked. -/
  unexpired : ∀ token secret validation now payload,
    jwt.decode token secret validation now = .ok payload →
      ∃ expiry, ("exp", ClaimValue.number expiry) ∈ payload ∧ now ≤ expiry + validation.leeway

def claim (payload : Payload) (name : String) : Except String ClaimValue :=
  match payload.filter fun entry => entry.1 = name with
  | [] => .error ("missing field `" ++ name ++ "`")
  | [entry] => .ok entry.2
  | _ => .error ("duplicate field `" ++ name ++ "`")

def textClaim (payload : Payload) (name : String) : Except String String := do
  match ← claim payload name with
  | .text value => return value
  | .number _ => throw "invalid type: integer, expected a string"

def numberClaim (payload : Payload) (name : String) : Except String Int := do
  match ← claim payload name with
  | .number value => return value
  | .text _ => throw "invalid type: string, expected i64"

def uuidClaim (jwt : JwtCrate) (payload : Payload) (name : String) : Except String Uuid := do
  let text ← textClaim payload name
  match jwt.parseUuid text with
  | some id => return id
  | none => throw "UUID parsing failed"

structure Claims where
  sub : Uuid
  email : String
  exp : Int
  iat : Int
deriving DecidableEq, Repr

def Claims.payload (claims : Claims) : Payload :=
  [("sub", .text claims.sub.toString), ("email", .text claims.email), ("exp", .number claims.exp),
    ("iat", .number claims.iat)]

def Claims.read (jwt : JwtCrate) (payload : Payload) : Except String Claims := do
  let sub ← uuidClaim jwt payload "sub"
  let email ← textClaim payload "email"
  let exp ← numberClaim payload "exp"
  let iat ← numberClaim payload "iat"
  return ⟨sub, email, exp, iat⟩

structure ExecTokenClaims where
  sub : Uuid
  containerId : String
  kind : String
  exp : Int
  iat : Int
deriving DecidableEq, Repr

def ExecTokenClaims.payload (claims : ExecTokenClaims) : Payload :=
  [("sub", .text claims.sub.toString), ("container_id", .text claims.containerId),
    ("kind", .text claims.kind), ("exp", .number claims.exp), ("iat", .number claims.iat)]

def ExecTokenClaims.read (jwt : JwtCrate) (payload : Payload) : Except String ExecTokenClaims := do
  let sub ← uuidClaim jwt payload "sub"
  let containerId ← textClaim payload "container_id"
  let kind ← textClaim payload "kind"
  let exp ← numberClaim payload "exp"
  let iat ← numberClaim payload "iat"
  return ⟨sub, containerId, kind, exp, iat⟩

def gatePayload (claims : GateClaims) : Payload :=
  [("sub", .text claims.sub.toString), ("host", .text claims.host), ("kind", .text claims.kind),
    ("iat", .number claims.iat), ("exp", .number claims.exp)]

def readGate (jwt : JwtCrate) (payload : Payload) : Except String GateClaims := do
  let sub ← uuidClaim jwt payload "sub"
  let host ← textClaim payload "host"
  let kind ← textClaim payload "kind"
  let iat ← numberClaim payload "iat"
  let exp ← numberClaim payload "exp"
  return ⟨sub, host, kind, iat.toNat, exp.toNat⟩

/-- A `Duration` of so many seconds; `none` is the panic of one out of bounds. -/
def duration (seconds : Int) : Option Int :=
  if seconds.natAbs ≤ 9223372036854775 then some seconds else none

/-- `now + duration`; `none` is the panic of a date out of the calendar. -/
def later (now seconds : Int) : Option Int :=
  if -8334601228800 ≤ now + seconds ∧ now + seconds ≤ 8210266876799 then some (now + seconds)
  else none

/-- `now + Duration`, of a number of units. -/
def expiryAfter (now unit count : Int) : Option Int := do
  let seconds ← duration (count * unit)
  later now seconds

inductive TokenError where
  | internal (message : String)
  | unauthorized (message : String)
deriving DecidableEq, Repr

/-- `none` is a panic. -/
abbrev Made (Value : Type) : Type := Option (Except TokenError Value)

section Functions

variable (jwt : JwtCrate)

def createClaimsToken (userId : Uuid) (email secret : String) (issuedAt expiresAt : Int) :
    Except TokenError String :=
  match jwt.encode (Claims.payload ⟨userId, email, expiresAt, issuedAt⟩) secret with
  | .ok token => .ok token
  | .error message => .error (.internal ("failed to create token: " ++ message))

def createToken (userId : Uuid) (email secret : String) (expiryHours : Nat) (now : Int) :
    Made String :=
  (expiryAfter now 3600 (asI64 expiryHours)).map fun exp =>
    createClaimsToken jwt userId email secret now exp

def createApiKey (userId : Uuid) (email secret : String) (expiryDays : Nat) (now : Int) :
    Made String :=
  (expiryAfter now 86400 (asI64 expiryDays)).map fun exp =>
    createClaimsToken jwt userId email secret now exp

def containerExec : String := "container_exec"

def createExecToken (userId : Uuid) (containerId secret : String) (expirySeconds now : Int) :
    Made (String × Int) :=
  (expiryAfter now 1 expirySeconds).map fun exp =>
    match jwt.encode (ExecTokenClaims.payload ⟨userId, containerId, containerExec, exp, now⟩)
        secret with
    | .ok token => .ok (token, exp)
    | .error message => .error (.internal ("failed to create exec token: " ++ message))

def validateToken (token secret : String) (now : Int) : Except TokenError Claims :=
  match (jwt.decode token secret .default now).bind (Claims.read jwt) with
  | .ok claims => .ok claims
  | .error message => .error (.unauthorized ("invalid token: " ++ message))

def validateExecToken (token containerId secret : String) (now : Int) :
    Except TokenError ExecTokenClaims :=
  match (jwt.decode token secret .default now).bind (ExecTokenClaims.read jwt) with
  | .error message => .error (.unauthorized ("invalid exec token: " ++ message))
  | .ok claims =>
      if claims.kind ≠ containerExec then .error (.unauthorized "invalid exec token kind")
      else if claims.containerId ≠ containerId then
        .error (.unauthorized "exec token does not match container")
      else .ok claims

def gateLibraries (lib : Libraries) : Libraries := { lib with
  decodeToken := fun secret token now =>
    ((jwt.decode token secret ⟨5⟩ now).bind (readGate jwt)).toOption
  encodeToken := fun secret claims => (jwt.encode (gatePayload claims) secret).toOption }

end Functions

inductive Issuer where
  | login (userId : Uuid) (email : String) (expiryHours : Nat)
  | apiKey (userId : Uuid) (email : String) (expiryDays : Nat)
  | exec (userId : Uuid) (containerId : String) (expirySeconds : Int)
  | gate (userId : Uuid) (host : String) (kind : GateTokenKind)
deriving DecidableEq, Repr

inductive Verifier where
  | token
  | exec (containerId : String)
  | gate (host : String) (kind : GateTokenKind)
deriving DecidableEq, Repr

def Issuer.issue (lib : Libraries) (jwt : JwtCrate) (secret : String) (now : Time) :
    Issuer → Option String
  | .login userId email expiryHours =>
      (createToken jwt userId email secret expiryHours now).bind Except.toOption
  | .apiKey userId email expiryDays =>
      (createApiKey jwt userId email secret expiryDays now).bind Except.toOption
  | .exec userId containerId expirySeconds =>
      ((createExecToken jwt userId containerId secret expirySeconds now).bind Except.toOption).map
        Prod.fst
  | .gate userId host kind => Proxy.issueGateToken (gateLibraries jwt lib) secret userId host kind now

/-- When the token expires. -/
def Issuer.expiry (now : Time) : Issuer → Int
  | .login _ _ expiryHours => now + asI64 expiryHours * 3600
  | .apiKey _ _ expiryDays => now + asI64 expiryDays * 86400
  | .exec _ _ expirySeconds => now + expirySeconds
  | .gate _ _ kind => now + kind.ttl

def Verifier.accepts (lib : Libraries) (jwt : JwtCrate) (secret token : String) (now : Time) :
    Verifier → Bool
  | .token => (validateToken jwt token secret now).toOption.isSome
  | .exec containerId => (validateExecToken jwt token containerId secret now).toOption.isSome
  | .gate host kind =>
      (Proxy.verifyGateToken (gateLibraries jwt lib) secret token host kind now).isSome

def Verifier.leeway : Verifier → Int
  | .token | .exec _ => 60
  | .gate _ _ => 5

def Issuer.For : Issuer → Verifier → Prop
  | .login _ _ _, .token | .apiKey _ _ _, .token => True
  | .exec _ containerId _, .exec wanted => wanted = containerId
  | .gate _ host kind, .gate wanted wantedKind =>
      wantedKind = kind ∧ Text.eqIgnoreAsciiCase wanted host = true
  | _, _ => False

def Issuer.payload (now : Time) : Issuer → Payload
  | .login userId email expiryHours =>
      Claims.payload ⟨userId, email, now + asI64 expiryHours * 3600, now⟩
  | .apiKey userId email expiryDays =>
      Claims.payload ⟨userId, email, now + asI64 expiryDays * 86400, now⟩
  | .exec userId containerId expirySeconds =>
      ExecTokenClaims.payload ⟨userId, containerId, containerExec, now + expirySeconds, now⟩
  | .gate userId host kind =>
      gatePayload ⟨userId, Text.toAsciiLowercase host, kind.asStr, now, now + kind.ttl⟩

def Verifier.Finds (payload : Payload) : Verifier → Prop
  | .token => ∃ email, textClaim payload "email" = .ok email
  | .exec containerId => textClaim payload "container_id" = .ok containerId ∧
      textClaim payload "kind" = .ok containerExec
  | .gate host kind => ∃ found, textClaim payload "host" = .ok found ∧
      Text.eqIgnoreAsciiCase found host = true ∧ textClaim payload "kind" = .ok kind.asStr

section Proofs

variable {lib : Libraries} {jwt : JwtCrate} {secret token : String} {now : Time}

theorem expiry_after_some {unit count expiry : Int} {start : Int}
    (made : expiryAfter start unit count = some expiry) : expiry = start + count * unit := by
  unfold expiryAfter duration later at made
  split_ifs at made with bounded
  · dsimp only [Option.bind_eq_bind, Option.bind_some] at made
    split_ifs at made
    exact (Option.some.inj made).symm
  · cases made

theorem create_claims_token_encodes {userId : Uuid} {email : String} {issuedAt expiresAt : Int}
    (made : (createClaimsToken jwt userId email secret issuedAt expiresAt).toOption = some token) :
    jwt.encode (Claims.payload ⟨userId, email, expiresAt, issuedAt⟩) secret = .ok token := by
  have returned := ok_of_to_option made
  unfold createClaimsToken at returned
  split at returned
  · rename_i encoded same
    cases returned
    exact same
  · cases returned

variable {issuer : Issuer}

theorem issue_encodes (issued : issuer.issue lib jwt secret now = some token) :
    jwt.encode (issuer.payload now) secret = .ok token := by
  cases issuer with
  | login userId email expiryHours =>
      obtain ⟨result, made, ok⟩ := Option.bind_eq_some_iff.mp issued
      obtain ⟨expiry, after, rfl⟩ := Option.map_eq_some_iff.mp made
      rw [expiry_after_some after] at ok
      exact create_claims_token_encodes ok
  | apiKey userId email expiryDays =>
      obtain ⟨result, made, ok⟩ := Option.bind_eq_some_iff.mp issued
      obtain ⟨expiry, after, rfl⟩ := Option.map_eq_some_iff.mp made
      rw [expiry_after_some after] at ok
      exact create_claims_token_encodes ok
  | exec userId containerId expirySeconds =>
      obtain ⟨⟨made, exp⟩, returned, rfl⟩ := Option.map_eq_some_iff.mp issued
      obtain ⟨result, created, ok⟩ := Option.bind_eq_some_iff.mp returned
      obtain ⟨expiry, after, rfl⟩ := Option.map_eq_some_iff.mp created
      have encoded := ok_of_to_option ok
      split at encoded
      · rename_i signed same
        cases encoded
        rw [expiry_after_some after, Int.mul_one] at same
        exact same
      · cases encoded
  | gate userId host kind =>
      exact ok_of_to_option issued

theorem read_claims {payload : Payload} {claims : Claims}
    (read : Claims.read jwt payload = .ok claims) : Verifier.token.Finds payload := by
  obtain ⟨sub, -, read⟩ := except_bind_ok read
  obtain ⟨email, found, -⟩ := except_bind_ok read
  exact ⟨email, found⟩

theorem read_exec_claims {payload : Payload} {claims : ExecTokenClaims}
    (read : ExecTokenClaims.read jwt payload = .ok claims) :
    textClaim payload "container_id" = .ok claims.containerId ∧
      textClaim payload "kind" = .ok claims.kind := by
  obtain ⟨sub, -, read⟩ := except_bind_ok read
  obtain ⟨containerId, foundContainer, read⟩ := except_bind_ok read
  obtain ⟨kind, foundKind, read⟩ := except_bind_ok read
  obtain ⟨exp, -, read⟩ := except_bind_ok read
  obtain ⟨iat, -, read⟩ := except_bind_ok read
  cases read
  exact ⟨foundContainer, foundKind⟩

theorem read_gate_claims {payload : Payload} {claims : GateClaims}
    (read : readGate jwt payload = .ok claims) :
    textClaim payload "host" = .ok claims.host ∧ textClaim payload "kind" = .ok claims.kind := by
  obtain ⟨sub, -, read⟩ := except_bind_ok read
  obtain ⟨host, foundHost, read⟩ := except_bind_ok read
  obtain ⟨kind, foundKind, read⟩ := except_bind_ok read
  obtain ⟨iat, -, read⟩ := except_bind_ok read
  obtain ⟨exp, -, read⟩ := except_bind_ok read
  cases read
  exact ⟨foundHost, foundKind⟩

variable {verifier : Verifier}

/-- An accepted token decodes to a payload in which the verifier finds what it compares. -/
theorem accepts_decodes (accepted : verifier.accepts lib jwt secret token now = true) :
    ∃ payload, jwt.decode token secret ⟨verifier.leeway⟩ now = .ok payload ∧
      verifier.Finds payload := by
  cases verifier with
  | token =>
      obtain ⟨claims, some⟩ := Option.isSome_iff_exists.mp accepted
      have valid := ok_of_to_option some
      unfold validateToken at valid
      split at valid
      · rename_i read same
        obtain ⟨payload, decoded, found⟩ := except_bind_ok same
        exact ⟨payload, decoded, read_claims found⟩
      · cases valid
  | exec containerId =>
      obtain ⟨claims, some⟩ := Option.isSome_iff_exists.mp accepted
      have valid := ok_of_to_option some
      unfold validateExecToken at valid
      split at valid
      · cases valid
      · rename_i read same
        split_ifs at valid with otherKind otherContainer
        obtain ⟨payload, decoded, found⟩ := except_bind_ok same
        have claims := read_exec_claims found
        rw [not_not.mp otherKind, not_not.mp otherContainer] at claims
        exact ⟨payload, decoded, claims⟩
  | gate host kind =>
      obtain ⟨user, valid⟩ := Option.isSome_iff_exists.mp accepted
      unfold Proxy.verifyGateToken at valid
      split at valid
      · cases valid
      · rename_i claims same
        split_ifs at valid with refused
        have same := ok_of_to_option same
        obtain ⟨payload, decoded, found⟩ := except_bind_ok same
        have read := read_gate_claims found
        have matched : claims.kind = kind.asStr ∧ Text.eqIgnoreAsciiCase claims.host host = true := by
          simpa using refused
        rw [matched.1] at read
        exact ⟨payload, decoded, claims.host, read.1, matched.2, read.2⟩

theorem as_str_injective {kind other : GateTokenKind} (same : kind.asStr = other.asStr) :
    kind = other := by
  cases kind <;> cases other <;> first | rfl | exact absurd same (by decide)

/-- The claims of one kind hold what another kind's verifier looks for in no case. -/
theorem for_of_finds (finds : verifier.Finds (issuer.payload now)) : issuer.For verifier := by
  cases issuer with
  | login userId email expiryHours =>
      cases verifier with
      | token => trivial
      | exec containerId => cases finds.1
      | gate host kind =>
          obtain ⟨found, isHost, -⟩ := finds
          cases isHost
  | apiKey userId email expiryDays =>
      cases verifier with
      | token => trivial
      | exec containerId => cases finds.1
      | gate host kind =>
          obtain ⟨found, isHost, -⟩ := finds
          cases isHost
  | exec userId containerId expirySeconds =>
      cases verifier with
      | token =>
          obtain ⟨email, found⟩ := finds
          cases found
      | exec wanted => exact (Except.ok.inj finds.1).symm
      | gate host kind =>
          obtain ⟨found, isHost, -⟩ := finds
          cases isHost
  | gate userId host kind =>
      cases verifier with
      | token =>
          obtain ⟨email, found⟩ := finds
          cases found
      | exec wanted => cases finds.1
      | gate wanted wantedKind =>
          obtain ⟨found, isHost, sameHost, isKind⟩ := finds
          have hosts : Text.toAsciiLowercase host = found := Except.ok.inj isHost
          have kinds : kind.asStr = wantedKind.asStr := Except.ok.inj isKind
          have lowered : Text.toAsciiLowercase found = Text.toAsciiLowercase wanted :=
            of_decide_eq_true sameHost
          rw [← hosts, Text.to_ascii_lowercase_idem] at lowered
          exact ⟨as_str_injective kinds.symm, decide_eq_true lowered.symm⟩

theorem payload_expiry {expiry : Int}
    (signed : ("exp", ClaimValue.number expiry) ∈ issuer.payload now) :
    expiry = issuer.expiry now := by
  cases issuer with
  | login userId email expiryHours =>
      simpa [Issuer.payload, Issuer.expiry, Claims.payload] using signed
  | apiKey userId email expiryDays =>
      simpa [Issuer.payload, Issuer.expiry, Claims.payload] using signed
  | exec userId containerId expirySeconds =>
      simpa [Issuer.payload, Issuer.expiry, ExecTokenClaims.payload] using signed
  | gate userId host kind =>
      simpa [Issuer.payload, Issuer.expiry, gatePayload] using signed

/-- A token is accepted only by the verifier of its own kind, for its own container or its
own kind and host, and not after its expiry and the verifier's leeway. -/
theorem token_kinds_apart (documented : jwt.Documented) (lib : Libraries)
    {issuer : Issuer} {verifier : Verifier} {secret verifierSecret token : String}
    {issuedAt now : Time} (issued : issuer.issue lib jwt secret issuedAt = some token)
    (accepted : verifier.accepts lib jwt verifierSecret token now = true) :
    issuer.For verifier ∧ (now : Int) ≤ issuer.expiry issuedAt + verifier.leeway := by
  obtain ⟨payload, decoded, finds⟩ := accepts_decodes accepted
  have same : payload = issuer.payload issuedAt :=
    documented.carries _ _ _ _ _ (documented.signed _ _ _ _ _ decoded) (issue_encodes issued)
  obtain ⟨expiry, signed, inTime⟩ := documented.unexpired _ _ _ _ _ decoded
  rw [same] at finds signed
  rw [payload_expiry signed] at inTime
  exact ⟨for_of_finds finds, inTime⟩

end Proofs

def demoIssuer : Issuer := .exec ⟨7⟩ "containr-demo" 90

def demoJwt : JwtCrate where
  encode payload secret :=
    if payload = demoIssuer.payload 1000 ∧ secret = "test-secret" then .ok "header.claims.signature"
    else .error "not signed here"
  decode token secret validation now :=
    if token = "header.claims.signature" ∧ secret = "test-secret" ∧
        now ≤ demoIssuer.expiry 1000 + validation.leeway then .ok (demoIssuer.payload 1000)
    else .error "InvalidToken"
  parseUuid text := if text = (⟨7⟩ : Uuid).toString then some ⟨7⟩ else none

theorem demo_jwt_documented : demoJwt.Documented where
  signed := by
    intro token secret validation now payload decoded
    simp only [demoJwt] at decoded ⊢
    split_ifs at decoded with accepted
    cases decoded
    rw [if_pos ⟨rfl, accepted.2.1⟩, accepted.1]
  carries := by
    intro token payload secret payload' secret' encoded encoded'
    simp only [demoJwt] at encoded encoded'
    split_ifs at encoded encoded' with first second
    rw [first.1, second.1]
  unexpired := by
    intro token secret validation now payload decoded
    simp only [demoJwt] at decoded
    split_ifs at decoded with accepted
    cases decoded
    exact ⟨demoIssuer.expiry 1000, by decide, accepted.2.2⟩

def demoLibraries : Libraries where
  toLowercase text := Text.toAsciiLowercase text
  decodeBase64 _ := none
  verifyPassword _ _ := false
  decodeToken _ _ _ := none
  encodeToken _ _ := none
  parseQuery _ := []
  urlWithPairs _ _ := none

theorem exec_token_in_time :
    (Verifier.exec "containr-demo").accepts demoLibraries demoJwt "test-secret"
      "header.claims.signature" 1150 = true ∧ demoIssuer.For (.exec "containr-demo") ∧
      ((1150 : Time) : Int) ≤ demoIssuer.expiry 1000 + (Verifier.exec "containr-demo").leeway := by
  have issued : demoIssuer.issue demoLibraries demoJwt "test-secret" 1000 =
      some "header.claims.signature" := by decide +kernel
  have accepted : (Verifier.exec "containr-demo").accepts demoLibraries demoJwt "test-secret"
      "header.claims.signature" 1150 = true := by decide +kernel
  exact ⟨accepted, token_kinds_apart demo_jwt_documented demoLibraries issued accepted⟩

end Containr.Auth
