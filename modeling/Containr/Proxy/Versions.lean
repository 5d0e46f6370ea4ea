import Containr.Effect.Calls
import Containr.Proxy.Admission

/-!
# Requests beside changes of the route table

Other tasks add and remove routes before any call of a request. The request looks
its route up several times, so the version it is checked against need not be the
version it is forwarded to. A `Watched` proxy also remembers the route of the host as
the request's last lookup found it.
-/

namespace Containr.Proxy

open Containr.Effect Containr.Effect.Program

variable {lib : Libraries}

inductive TableChange where
  | add (route : Route)
  | remove (domain : String)
deriving DecidableEq, Repr

def Table.change (table : Table lib) : TableChange → Table lib
  | .add route => table.addRoute route
  | .remove domain => table.removeRoute domain

def ContainrProxy.after (proxy : ContainrProxy lib) (changes : List TableChange) :
    ContainrProxy lib :=
  { proxy with table := changes.foldl Table.change proxy.table }

structure Watched (lib : Libraries) where
  proxy : ContainrProxy lib
  seen : Option Route

def ProxyOp.looksUp : ProxyOp lib → Bool
  | .getRoute _ | .checkBasicAuth _ _ | .selectUpstream _ => true
  | _ => false

/-- A call after the changes that other tasks made since the previous call. -/
def Watched.answer (watched : Watched lib) (host : String) (op : ProxyOp lib)
    (changes : List TableChange) : op.Answer × Watched lib :=
  let now := watched.proxy.after changes
  ((now.answer op).1,
    ⟨(now.answer op).2, if op.looksUp then now.table.getRoute host else watched.seen⟩)

/-- Before each call any routes are added and removed. -/
def beside (lib : Libraries) (host : String) : Machine (ProxyFace lib) (Watched lib) where
  Choice _ := List TableChange
  exec op changes watched := watched.answer host op changes
  Admits _ _ _ := True

def SamePolicy (first second : Route) : Prop :=
  first.loginGate = second.loginGate ∧
    (second.loginGate = none → first.basicAuth = second.basicAuth)

instance (first second : Route) : Decidable (SamePolicy first second) :=
  inferInstanceAs (Decidable (_ ∧ (_ → _)))

def Route.isOpen (route : Route) : Prop := route.loginGate = none ∧ route.basicAuth = none

instance (route : Route) : Decidable route.isOpen := inferInstanceAs (Decidable (_ ∧ _))

/-- The host keeps a route without gate until basic auth is checked, and the route an
upstream is taken from is open or has the policy of the lookup before. -/
def PolicyStays (host : String) (op : ProxyOp lib) (changes : List TableChange)
    (watched : Watched lib) : Prop :=
  match op with
  | .checkBasicAuth _ _ =>
      ∃ route ∈ (watched.proxy.after changes).table.getRoute host, route.loginGate = none
  | .selectUpstream _ => ∀ route ∈ (watched.proxy.after changes).table.getRoute host,
      route.isOpen ∨ ∃ earlier ∈ watched.seen, SamePolicy route earlier
  | _ => True

instance policyStaysDecidable (host : String) (op : ProxyOp lib) (changes : List TableChange)
    (watched : Watched lib) : Decidable (PolicyStays host op changes watched) :=
  match op with
  | .checkBasicAuth _ _ => inferInstanceAs (Decidable (∃ route ∈ _, _))
  | .selectUpstream _ => inferInstanceAs (Decidable (∀ route ∈ _, _))
  | .readConfig | .challenge _ | .getRoute _ | .verify _ | .knownUser _ | .hasCertificate _
  | .utcNow | .addRoute _ | .removeRoute _ | .listRoutes | .loadApp _ | .listDeployments _
  | .listContainers _ | .networksOf _ => isTrue trivial

def steadily (lib : Libraries) (host : String) : Machine (ProxyFace lib) (Watched lib) :=
  (beside lib host).only (PolicyStays host)

instance (host : String) (op : (ProxyFace lib).Op) (changes : (steadily lib host).Choice op)
    (watched : Watched lib) : Decidable ((steadily lib host).Admits op changes watched) :=
  @instDecidableAnd _ _ (isTrue trivial) (policyStaysDecidable host op changes watched)

theorem same_policy_admits {proxy : ContainrProxy lib} {host : String} {request : Request}
    {first second : Route} (same : SamePolicy first second)
    (admitted : PolicyAdmits proxy host request second) : PolicyAdmits proxy host request first := by
  unfold PolicyAdmits at admitted ⊢
  rw [same.1]
  rcases admitted with gated | ⟨ungated, basic⟩
  · exact Or.inl gated
  · right
    refine ⟨ungated, ?_⟩
    intro expected required
    rw [same.2 ungated] at required
    exact basic expected required

theorem open_admits (proxy : ContainrProxy lib) (host : String) (request : Request) {route : Route}
    (isOpen : route.isOpen) : PolicyAdmits proxy host request route := by
  right
  refine ⟨isOpen.1, ?_⟩
  intro expected required
  rw [isOpen.2] at required
  cases required

/-- The parts of the proxy that no table change touches. -/
structure Undisturbed (proxy : ContainrProxy lib) (watched : Watched lib) : Prop where
  config : watched.proxy.config = proxy.config
  clock : watched.proxy.clock = proxy.clock
  knownUser : watched.proxy.knownUser = proxy.knownUser

section Requests

variable {proxy : ContainrProxy lib} {host : String} {watched : Watched lib}

theorem step_undisturbed {op : ProxyOp lib} {after : Watched lib} {answer : op.Answer}
    (possible : (steadily lib host).can op watched answer after) (still : Undisturbed proxy watched)
    : Undisturbed proxy after := by
  obtain ⟨changes, -, exec⟩ := possible
  have result : after = (watched.answer host op changes).2 := (congrArg Prod.snd exec).symm
  rw [result]
  cases op <;> exact ⟨still.config, still.clock, still.knownUser⟩

theorem program_undisturbed {Value : Type} (program : Prog lib Value)
    (still : Undisturbed proxy watched) :
    program.Ensures (steadily lib host).can (fun _ after => Undisturbed proxy after) watched := by
  have keeps : ∀ (op : ProxyOp lib) (before : Watched lib) (answer : op.Answer)
      (after : Watched lib), Undisturbed proxy before →
      (steadily lib host).can op before answer after → Undisturbed proxy after :=
    fun _ _ _ _ still possible => step_undisturbed possible still
  have always := always_of_step program keeps still
  exact always.restrict (fun _ _ _ _ possible => possible) (fun _ _ _ => trivial)

/-- What the gate asks of the rest of the system. -/
def ProxyOp.steady : ProxyOp lib → Prop
  | .readConfig | .utcNow | .knownUser _ => True
  | _ => False

theorem step_steady {op : ProxyOp lib} {after : Watched lib} {answer : op.Answer}
    (steady : op.steady) (possible : (steadily lib host).can op watched answer after)
    (still : Undisturbed proxy watched) :
    proxy.answer op = (answer, proxy) ∧ after.seen = watched.seen := by
  obtain ⟨changes, -, exec⟩ := possible
  have isAnswer : (watched.answer host op changes).1 = answer := congrArg Prod.fst exec
  have isAfter : (watched.answer host op changes).2 = after := congrArg Prod.snd exec
  rw [← isAnswer, ← isAfter]
  cases op with
  | readConfig => exact ⟨congrArg (·, proxy) still.config.symm, rfl⟩
  | utcNow => exact ⟨congrArg (·, proxy) still.clock.symm, rfl⟩
  | knownUser user => exact ⟨congrArg (·, proxy) (congrFun still.knownUser user).symm, rfl⟩
  | _ => cases steady

/-- A program that looks no route up returns what it returns alone. -/
theorem steady_program {Value : Type} (program : Prog lib Value)
    (calls : program.Calls ProxyOp.steady) (still : Undisturbed proxy watched) :
    program.Ensures (steadily lib host).can (fun value after =>
      value = (proxy.execute program).1 ∧ after.seen = watched.seen ∧
        Undisturbed proxy after) watched := by
  induction program generalizing watched with
  | pure value =>
      apply always_pure.mpr
      exact ⟨rfl, rfl, still⟩
  | call op next ih =>
      refine always_call.mpr ⟨trivial, ?_⟩
      intro answer after possible
      obtain ⟨answered, kept⟩ := step_steady calls.head possible still
      have sameRun : proxy.execute (.call op next) = proxy.execute (next answer) := by
        change (proxy.answer op).2.execute (next (proxy.answer op).1) = _
        rw [answered]
      refine (ih answer (calls.next answer) (step_undisturbed possible still)).mono ?_
      rintro value final ⟨isValue, seen, stillFinal⟩
      rw [sameRun]
      exact ⟨isValue, seen.trans kept, stillFinal⟩

theorem allowed_user_calls (gate : RouteLoginGate) (user : Option Uuid) :
    (allowedUser gate user : Prog lib _).Calls ProxyOp.steady := by
  unfold allowedUser
  cases user with
  | none => exact calls_pure _
  | some user =>
      apply Calls.bind
      · unfold gateAllows
        cases gate.scope with
        | owner => exact calls_pure _
        | allUsers => exact calls_perform trivial
      · exact fun _ => calls_pure _

theorem check_token_calls (secret host : String) (kind : GateTokenKind) (token : Option String) :
    (checkToken secret host kind token : Prog lib _).Calls ProxyOp.steady := by
  unfold checkToken
  cases token with
  | none => exact calls_pure _
  | some token => exact (calls_perform trivial).bind fun _ => calls_pure _

theorem enforce_login_gate_calls (host : String) (request : Request) (gate : RouteLoginGate) :
    (enforceLoginGate host request gate : Prog lib _).Calls ProxyOp.steady := by
  unfold enforceLoginGate
  refine (calls_perform trivial).bind fun config => ?_
  split_ifs
  · refine Calls.bind ?_ fun _ => calls_pure _
    unfold exchangePass
    refine (check_token_calls _ _ _ _).bind fun user => ?_
    refine (allowed_user_calls gate user).bind fun entered => ?_
    refine Calls.bind ?_ fun _ => calls_pure _
    unfold issueSession
    cases entered with
    | none => exact calls_pure _
    | some user => exact (calls_perform trivial).bind fun _ => calls_pure _
  · refine (check_token_calls _ _ _ _).bind fun user => ?_
    exact (allowed_user_calls gate user).bind fun _ => calls_pure _

theorem select_upstream_route {table : Table lib} {selection : SelectedUpstream lib}
    (selected : (table.selectUpstream host).1 = some selection) :
    table.getRoute host = some selection.state.route := by
  unfold Table.selectUpstream at selected
  unfold Table.getRoute
  cases entry : table.find host with
  | none => simp [entry] at selected
  | some state =>
      simp only [entry] at selected
      split_ifs at selected
      rw [← Option.some.inj selected, Option.map_some]

variable {authorization : String} {request : Request}

/-- The verdict on a pending check is the verdict of the state it was read from. -/
theorem verify_admits (table : Table lib) {pending : PendingBasicAuth lib}
    (isHeader : request.header "authorization" = some authorization)
    (sameHeader : pending.header = Text.trim authorization)
    (verified : (table.verify pending).1 = true) :
    BasicAuthAdmits lib request pending.state.route := by
  intro expected required
  refine ⟨authorization, isHeader, ?_⟩
  rw [← header_verifies_trimmed, ← sameHeader]
  exact (verify_iff table pending required).mp verified

/-- A check that passes, at once or after verification, was made against a route
that admits the request. -/
structure CheckSound (request : Request) (route : Route) (check : BasicAuthCheck lib) : Prop where
  passes : check = .notRequired ∨ check = .allowed → BasicAuthAdmits lib request route
  verdict : ∀ pending, check = .verify pending → ∀ table : Table lib,
    (table.verify pending).1 = true → BasicAuthAdmits lib request route

variable {route : Route}

theorem sound_of_admits (check : BasicAuthCheck lib) (admits : BasicAuthAdmits lib request route) :
    CheckSound request route check :=
  ⟨fun _ => admits, fun _ _ _ _ => admits⟩

theorem denied_sound (request : Request) (route : Route) :
    CheckSound request route (.denied : BasicAuthCheck lib) :=
  ⟨by simp, by simp⟩

theorem pending_check_sound (state : RouteState lib)
    (isHeader : request.header "authorization" = some authorization) :
    CheckSound request state.route (Table.pendingCheck state (Text.trim authorization)) := by
  rcases pending_check_cases state (Text.trim authorization) with
    ⟨-, denied⟩ | ⟨pending, isPending, sameState, sameHeader⟩
  · rw [denied]
    exact denied_sound request state.route
  · rw [isPending]
    refine ⟨by simp, ?_⟩
    intro other isOther table verified
    rw [← BasicAuthCheck.verify.inj isOther] at verified
    rw [← sameState]
    exact verify_admits table isHeader sameHeader verified

theorem cached_sound (state : RouteState lib)
    (isHeader : request.header "authorization" = some authorization)
    (cached : Text.trim authorization ∈ state.authCache) :
    BasicAuthAdmits lib request state.route := by
  obtain ⟨stored, isStored, verifies⟩ := state.verified (Text.trim authorization) cached
  intro expected required
  rw [isStored] at required
  refine ⟨authorization, isHeader, ?_⟩
  rw [← header_verifies_trimmed, ← Option.some.inj required]
  exact verifies

theorem check_basic_auth_sound {table : Table lib} (found : table.getRoute host = some route) :
    CheckSound request route (table.checkBasicAuth host (request.header "authorization")) := by
  obtain ⟨state, entry, isRoute⟩ := Option.map_eq_some_iff.mp found
  unfold Table.checkBasicAuth
  rw [← isRoute, entry]
  dsimp only
  cases auth : state.route.basicAuth with
  | none =>
      apply sound_of_admits
      intro expected required
      rw [auth] at required
      cases required
  | some stored =>
      rw [if_neg (by simp)]
      cases isHeader : request.header "authorization" with
      | none => exact denied_sound request state.route
      | some authorization =>
          dsimp only [Option.map_some]
          split_ifs with cached
          · exact sound_of_admits _ (cached_sound state isHeader (List.contains_iff_mem.mp cached))
          · exact pending_check_sound state isHeader

def SeenAdmits (proxy : ContainrProxy lib) (host : String) (request : Request)
    (watched : Watched lib) : Prop :=
  ∃ route, watched.seen = some route ∧ PolicyAdmits proxy host request route

theorem basic_auth_watched (proxy : ContainrProxy lib) (request : Request) (watched : Watched lib) :
    (basicAuthAllowed host request).Ensures (steadily lib host).can (fun allowed after =>
      allowed = true → SeenAdmits proxy host request after) watched := by
  unfold basicAuthAllowed
  apply always_bind.mpr
  refine always_call.mpr ⟨trivial, ?_⟩
  rintro check after ⟨changes, ⟨-, route, found, ungated⟩, exec⟩
  have isCheck : (watched.answer host (.checkBasicAuth host (request.header "authorization"))
    changes).1 = check := congrArg Prod.fst exec
  have isAfter : (watched.answer host (.checkBasicAuth host (request.header "authorization"))
    changes).2 = after := congrArg Prod.snd exec
  have seen : after.seen = some route := by
    rw [← isAfter]
    exact found
  have sound : CheckSound request route check := by
    rw [← isCheck]
    exact check_basic_auth_sound found
  apply always_pure.mpr
  cases check with
  | notRequired =>
      have admits := sound.passes (Or.inl rfl)
      exact always_pure.mpr fun _ => ⟨route, seen, Or.inr ⟨ungated, admits⟩⟩
  | allowed =>
      have admits := sound.passes (Or.inr rfl)
      exact always_pure.mpr fun _ => ⟨route, seen, Or.inr ⟨ungated, admits⟩⟩
  | denied => exact always_pure.mpr fun impossible => by cases impossible
  | verify pending =>
      refine always_call.mpr ⟨trivial, ?_⟩
      rintro verdict final ⟨more, -, ended⟩
      have isFinal : (after.answer host (.verify pending) more).2 = final := congrArg Prod.snd ended
      have isVerdict : (after.answer host (.verify pending) more).1 = verdict :=
        congrArg Prod.fst ended
      apply always_pure.mpr
      intro allowed
      refine ⟨route, ?_, Or.inr ⟨ungated, ?_⟩⟩
      · rw [← isFinal]
        exact seen
      · apply sound.verdict pending rfl (after.proxy.after more).table
        rw [← isVerdict] at allowed
        exact allowed

/-- Either the request is stopped with a response, or the policy last seen admits it. -/
def Decided (proxy : ContainrProxy lib) (host : String) (request : Request)
    (stopped : Option (Outcome lib)) (watched : Watched lib) : Prop :=
  match stopped with
  | some outcome => outcome.forwards = false
  | none => SeenAdmits proxy host request watched

theorem authenticate_watched (request : Request) (still : Undisturbed proxy watched)
    (seen : watched.seen = some route) :
    (authenticate host request route).Ensures (steadily lib host).can
      (Decided proxy host request) watched := by
  have stops := @authenticate_stops lib proxy host request route
  unfold authenticate at stops ⊢
  cases gated : route.loginGate with
  | some gate =>
      rw [gated] at stops
      refine (steady_program _ (enforce_login_gate_calls host request gate) still).mono ?_
      rintro stopped after ⟨isStopped, sameSeen, -⟩
      cases stopped with
      | some outcome => exact (stops isStopped.symm).1
      | none =>
          have admitted := (gate_passes_iff proxy host request gate).mp isStopped.symm
          exact ⟨route, sameSeen.trans seen, Or.inl ⟨gate, gated, admitted⟩⟩
  | none =>
      refine (basic_auth_watched proxy request watched).bind ?_
      intro allowed after admitted
      apply always_pure.mpr
      cases allowed with
      | true => exact admitted rfl
      | false => exact rfl

def ForwardsAdmitted (proxy : ContainrProxy lib) (host : String) (request : Request)
    (outcome : Outcome lib) : Prop :=
  ∀ selection, outcome = .forward selection → PolicyAdmits proxy host request selection.state.route

theorem forward_route_watched (admitted : SeenAdmits proxy host request watched) :
    (forwardRoute host).Ensures (steadily lib host).can (fun outcome _ =>
      ForwardsAdmitted proxy host request outcome) watched := by
  obtain ⟨earlier, isEarlier, admits⟩ := admitted
  unfold forwardRoute
  apply always_bind.mpr
  refine always_call.mpr ⟨trivial, ?_⟩
  rintro selected after ⟨changes, ⟨-, stays⟩, exec⟩
  have isSelected : ((watched.proxy.after changes).table.selectUpstream host).1 = selected :=
    congrArg Prod.fst exec
  apply always_pure.mpr
  apply always_pure.mpr
  intro selection forwarded
  cases selected with
  | none => cases forwarded
  | some chosen =>
      have sameSelection : chosen = selection := Outcome.forward.inj forwarded
      rw [← sameSelection]
      rcases stays _ (select_upstream_route isSelected) with isOpen | ⟨route, isRoute, same⟩
      · exact open_admits proxy host request isOpen
      · rw [isEarlier] at isRoute
        rw [← Option.some.inj isRoute] at same
        exact same_policy_admits same admits

theorem route_request_watched (request : Request) (still : Undisturbed proxy watched) :
    (routeRequest host request).Ensures (steadily lib host).can (fun outcome _ =>
      ForwardsAdmitted proxy host request outcome) watched := by
  unfold routeRequest
  apply always_bind.mpr
  refine always_call.mpr ⟨trivial, ?_⟩
  intro found after possible
  have stillAfter := step_undisturbed possible still
  obtain ⟨changes, -, exec⟩ := possible
  have isFound : (watched.proxy.after changes).table.getRoute host = found := congrArg Prod.fst exec
  have isAfter : (watched.answer host (.getRoute host) changes).2 = after := congrArg Prod.snd exec
  have seen : after.seen = found := by
    rw [← isAfter, ← isFound]
    rfl
  apply always_pure.mpr
  cases found with
  | none =>
      apply always_pure.mpr
      intro selection forwarded
      cases forwarded
  | some route =>
      refine (authenticate_watched request stillAfter seen).bind ?_
      intro stopped final decided
      cases stopped with
      | none => exact forward_route_watched decided
      | some outcome =>
          apply always_pure.mpr
          intro selection forwarded
          rw [forwarded] at decided
          cases decided

theorem serve_request_watched (config : ProxyConfig) (request : Request)
    (still : Undisturbed proxy watched) :
    (serveRequest config host request).Ensures (steadily lib host).can (fun outcome _ =>
      ForwardsAdmitted proxy host request outcome) watched := by
  unfold serveRequest
  refine (program_undisturbed _ still).bind ?_
  intro required after stillAfter
  split_ifs
  · unfold refuseHttp
    apply always_bind.mpr
    refine always_call.mpr ⟨trivial, ?_⟩
    intro certified final possible
    apply always_pure.mpr
    apply always_pure.mpr
    intro selection forwarded
    cases forwarded
  · unfold dispatch
    split_ifs
    · apply always_pure.mpr
      intro selection forwarded
      cases forwarded
    · apply always_pure.mpr
      intro selection forwarded
      split at forwarded
      · cases forwarded
      · cases forwarded
    · exact route_request_watched request stillAfter

theorem request_filter_watched (request : Request) (isHost : request.host lib = host)
    (still : Undisturbed proxy watched) :
    (requestFilter lib request).Ensures (steadily lib host).can (fun outcome _ =>
      ForwardsAdmitted proxy host request outcome) watched := by
  unfold requestFilter
  apply always_bind.mpr
  refine always_call.mpr ⟨trivial, ?_⟩
  intro config after possible
  have stillAfter := step_undisturbed possible still
  apply always_pure.mpr
  refine (program_undisturbed _ stillAfter).bind ?_
  intro challenge final stillFinal
  cases challenge with
  | some response =>
      apply always_pure.mpr
      intro selection forwarded
      cases forwarded
  | none =>
      rw [isHost]
      exact serve_request_watched config request stillFinal

end Requests

/-- While the policy of the host stays between the request's lookups, the upstream
belongs to a version of the route whose own policy admits the request. -/
theorem check_and_use_agree (lib : Libraries) (proxy : ContainrProxy lib) (request : Request)
    (seen : Option Route) (selection : SelectedUpstream lib) (final : Watched lib)
    (run : Runs (steadily lib (request.host lib)).can (requestFilter lib request) ⟨proxy, seen⟩
      (.forward selection) final) :
    PolicyAdmits proxy (request.host lib) request selection.state.route :=
  (request_filter_watched request rfl ⟨rfl, rfl, rfl⟩).runs run selection rfl

/-! A refresh removes a protected route before the check and adds it back after it. -/

def Outcome.forwardedTo : Outcome lib → Option Route
  | .forward selection => some selection.state.route
  | _ => none

theorem forwarded_to_some {outcome : Outcome lib} {route : Route}
    (forwarded : outcome.forwardedTo = some route) :
    ∃ selection, outcome = .forward selection ∧ selection.state.route = route := by
  cases outcome with
  | forward selection => exact ⟨selection, rfl, Option.some.inj forwarded⟩
  | _ => cases forwarded

def protectedRoute : Route :=
  { demoRoute "app.example.com" false with basicAuth := some ⟨"admin", "hash"⟩ }

def demoChanges (op : ProxyOp plainLibraries) (_ : Watched plainLibraries) : List TableChange :=
  match op with
  | .checkBasicAuth _ _ => [.remove "app.example.com"]
  | .selectUpstream _ => [.add protectedRoute]
  | _ => []

theorem refresh_lets_request_through : ∃ selection final,
    Runs (beside plainLibraries ((demoRequest (some "app.example.com")).host plainLibraries)).can
      (requestFilter plainLibraries (demoRequest (some "app.example.com")))
      ⟨demoProxy protectedRoute, none⟩ (.forward selection) final ∧
    ¬PolicyAdmits (demoProxy protectedRoute)
      ((demoRequest (some "app.example.com")).host plainLibraries)
      (demoRequest (some "app.example.com")) selection.state.route := by
  let host := (demoRequest (some "app.example.com")).host plainLibraries
  have run := runs_run (beside plainLibraries host) demoChanges (fun _ _ => trivial)
    (requestFilter plainLibraries (demoRequest (some "app.example.com")))
    ⟨demoProxy protectedRoute, none⟩
  have forwarded : ((requestFilter plainLibraries (demoRequest (some "app.example.com"))).run
      (beside plainLibraries host) demoChanges
      ⟨demoProxy protectedRoute, none⟩).1.forwardedTo = some protectedRoute := by decide +kernel
  obtain ⟨selection, isForward, isRoute⟩ := forwarded_to_some forwarded
  rw [isForward] at run
  refine ⟨selection, _, run, ?_⟩
  rw [isRoute]
  rintro (⟨gate, gated, -⟩ | ⟨-, basic⟩)
  · cases gated
  · obtain ⟨header, isHeader, -⟩ := basic ⟨"admin", "hash"⟩ rfl
    cases isHeader

def secretLibraries : Libraries :=
  { plainLibraries with
    decodeBase64 := fun text => if text = "YWRtaW46c2VjcmV0" then some "admin:secret" else none
    verifyPassword := fun password hash => password = "secret" && hash = "hash" }

def signedRequest : Request :=
  { demoRequest none with
    headers := [("host", some "app.example.com"),
      ("authorization", some "Basic YWRtaW46c2VjcmV0")] }

/-- Before each lookup the route is removed and added back. -/
def demoRefresh (op : ProxyOp secretLibraries) (_ : Watched secretLibraries) : List TableChange :=
  if op.looksUp then [.remove "app.example.com", .add protectedRoute] else []

/-- A refresh that adds the route back before the next lookup does no harm. -/
theorem check_and_use_agree_refreshed : ∃ selection final,
    Runs (steadily secretLibraries (signedRequest.host secretLibraries)).can
      (requestFilter secretLibraries signedRequest)
      ⟨demoProxyWith secretLibraries protectedRoute, none⟩ (.forward selection) final ∧
    selection.state.route = protectedRoute ∧
    PolicyAdmits (demoProxyWith secretLibraries protectedRoute)
      (signedRequest.host secretLibraries) signedRequest selection.state.route := by
  let host := signedRequest.host secretLibraries
  let start : Watched secretLibraries := ⟨demoProxyWith secretLibraries protectedRoute, none⟩
  have forwarded : ((requestFilter secretLibraries signedRequest).runChecked
      (steadily secretLibraries host) demoRefresh start).bind
        (fun ended => ended.1.forwardedTo) = some protectedRoute := by
    decide +kernel
  obtain ⟨⟨value, final⟩, checked, isForwarded⟩ := Option.bind_eq_some_iff.mp forwarded
  obtain ⟨selection, isForward, isRoute⟩ := forwarded_to_some isForwarded
  have run := Runs.of_checked checked
  dsimp only at isForward
  rw [isForward] at run
  exact ⟨selection, final, run, isRoute,
    check_and_use_agree secretLibraries _ signedRequest none selection final run⟩

end Containr.Proxy
