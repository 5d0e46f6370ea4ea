import Containr.Api.Identity
import Containr.Api.Stored

/-!
# Stored services are well formed

An absent field of a request keeps the stored value, and the checks of a cron job read the
request. So a service that becomes a cron job keeps the ports of what it was, unless it had
none or the request names the fields.
-/

namespace Containr.Api

open Containr.Effect Containr.Effect.Program Containr.Pushes Containr.Api.Services

/-- A call of `build_services` that was accepted. -/
structure BuildCall where
  existing : List ContainerService
  requests : List ServiceRequest
  services : List ContainerService

/-- `update_service` may rename a service before the call. -/
def Renamed : List ContainerService → List ContainerService → Prop :=
  List.Forall₂ fun stored carried => ∃ name, carried = { stored with name := name }

/-- The services of an app after some accepted calls, each from the services the previous
ones produced; an addition is built on its own and joined. -/
inductive Reachable (crates : Crates) (appId : Uuid) :
    List BuildCall → List ContainerService → Prop where
  | none : Reachable crates appId [] []
  | build {calls : List BuildCall} {previous existing services : List ContainerService}
      {requests : List ServiceRequest} {isAdmin : Bool}
      (earlier : Reachable crates appId calls previous) (carried : Renamed previous existing)
      (accepted : (buildServices crates appId existing requests isAdmin).run.Yields (.ok services)) :
      Reachable crates appId (calls ++ [⟨existing, requests, services⟩]) services
  | add {calls : List BuildCall} {previous added : List ContainerService}
      {requests : List ServiceRequest} {isAdmin : Bool}
      (earlier : Reachable crates appId calls previous)
      (accepted : (buildServices crates appId [] requests isAdmin).run.Yields (.ok added))
      (newNames : ∀ service ∈ added, ∀ other ∈ previous, service.name ≠ other.name) :
      Reachable crates appId (calls ++ [⟨[], requests, added⟩]) (previous ++ added)

section Reachable

variable {crates : Crates} {appId : Uuid} {calls : List BuildCall}
  {services : List ContainerService}

theorem Renamed.fields_kept {previous existing : List ContainerService}
    (renamed : Renamed previous existing)
    (kept : ∀ service ∈ previous, FieldsKept crates service) :
    ∀ service ∈ existing, FieldsKept crates service := by
  induction renamed with
  | nil => exact fun _ member => absurd member List.not_mem_nil
  | @cons stored carried previous existing first rest ih =>
      intro service member
      rcases List.mem_cons.mp member with isFirst | later
      · obtain ⟨name, same⟩ := first
        rw [isFirst, same]
        have fields := kept stored List.mem_cons_self
        exact { fields with }
      · exact ih (fun other inPrevious => kept other (List.mem_cons_of_mem _ inPrevious)) service later

theorem Reachable.stored (reached : Reachable crates appId calls services) :
    (∀ service ∈ services, Stored crates appId service) ∧ (services.map (·.name)).Nodup := by
  induction reached with
  | none => exact ⟨fun _ member => absurd member List.not_mem_nil, List.nodup_nil⟩
  | build earlier carried accepted ih =>
      obtain ⟨rounds, distinct⟩ := build_services_rounds accepted
      have kept := carried.fields_kept fun service member => (ih.1 service member).toFieldsKept
      exact ⟨rounds.stored kept, distinct⟩
  | add earlier accepted newNames ih =>
      obtain ⟨rounds, distinct⟩ := build_services_rounds accepted
      have fresh := rounds.stored fun _ member => absurd member List.not_mem_nil
      constructor
      · intro service member
        rcases List.mem_append.mp member with old | new
        · exact ih.1 service old
        · exact fresh service new
      · rw [List.map_append]
        apply List.Nodup.append ih.2 distinct
        intro name inOld inNew
        obtain ⟨other, isOld, sameOld⟩ := List.mem_map.mp inOld
        obtain ⟨service, isNew, sameNew⟩ := List.mem_map.mp inNew
        exact newNames service isNew other isOld (sameNew.trans sameOld.symm)

theorem Reachable.call (reached : Reachable crates appId calls services) {call : BuildCall}
    (member : call ∈ calls) : (∀ service ∈ call.existing, FieldsKept crates service) ∧
      ∃ isAdmin, Rounds crates appId call.existing isAdmin call.requests call.services := by
  induction reached with
  | none => cases member
  | build earlier carried accepted ih =>
      rcases List.mem_append.mp member with old | new
      · exact ih old
      · rw [List.mem_singleton.mp new]
        exact ⟨carried.fields_kept fun service inPrevious =>
          (earlier.stored.1 service inPrevious).toFieldsKept, _, (build_services_rounds accepted).1⟩
  | add earlier accepted newNames ih =>
      rcases List.mem_append.mp member with old | new
      · exact ih old
      · rw [List.mem_singleton.mp new]
        exact ⟨fun _ inNone => absurd inNone List.not_mem_nil, _, (build_services_rounds accepted).1⟩

end Reachable

structure WellFormed (service : ContainerService) : Prop where
  cron : service.serviceType = .cronJob → service.port = 0 ∧ service.replicas = 1 ∧
    service.schedule.isSome = true ∧ service.additionalPorts = [] ∧ service.portMappings = [] ∧
    service.healthCheck = none
  plain : service.serviceType ≠ .cronJob → service.schedule = none
  ported : service.serviceType = .webService ∨ service.serviceType = .privateService →
    service.port ≠ 0
  onlyWeb : service.serviceType ≠ .webService → service.domains = []
  httpOnly : ∀ domain ∈ service.httpOnlyDomains, domain ∈ service.domains
  notBoth : ¬(service.basicAuth.isSome = true ∧ service.loginGate.isSome = true)
  additionalPorts : (∀ port ∈ service.additionalPorts, port ≠ 0 ∧ port ≠ service.port) ∧
    service.additionalPorts.Nodup
  portMappings : (∀ mapping ∈ service.portMappings,
    mapping.hostPort ≠ 0 ∧ mapping.containerPort ≠ 0) ∧
    (service.portMappings.map PortMapping.key).Nodup

def Unported (service : ContainerService) : Prop :=
  service.serviceType = .cronJob → service.additionalPorts = [] ∧ service.portMappings = []

theorem MappingsKept.fit {stored : List PortMapping} (kept : MappingsKept stored) :
    (∀ mapping ∈ stored, mapping.hostPort ≠ 0 ∧ mapping.containerPort ≠ 0) ∧
      (stored.map PortMapping.key).Nodup := by
  constructor
  · intro mapping member
    obtain ⟨before, after, split⟩ := List.append_of_mem member
    obtain ⟨host, container, -⟩ := push_port_mapping_fits (kept before mapping after split)
    exact ⟨host, container⟩
  · apply nodup_of_fresh
    intro before mapping after split
    exact (push_port_mapping_fits (kept before mapping after split)).2.2

theorem Stored.well_formed_iff {crates : Crates} {appId : Uuid} {service : ContainerService}
    (stored : Stored crates appId service) : WellFormed service ↔ Unported service := by
  constructor
  · intro wellFormed isCron
    obtain ⟨-, -, -, additional, mapped, -⟩ := wellFormed.cron isCron
    exact ⟨additional, mapped⟩
  · intro unported
    exact {
      cron := by
        intro isCron
        obtain ⟨zero, one, some⟩ := stored.scheduled isCron
        obtain ⟨additional, mapped⟩ := unported isCron
        exact ⟨zero, one, some, additional, mapped, stored.unchecked (Or.inr isCron) zero⟩
      plain := stored.unscheduled
      ported := by
        intro needsPort zero
        rcases stored.ported with worker | cron | ported
        · rcases needsPort with web | private_
          · cases worker.symm.trans web
          · cases worker.symm.trans private_
        · rcases needsPort with web | private_
          · cases cron.symm.trans web
          · cases cron.symm.trans private_
        · exact ported zero
      onlyWeb := fun notWeb => (stored.onlyWeb notWeb).1
      httpOnly := stored.httpOnly.2
      notBoth := by
        intro both
        have not := stored.notBoth
        rw [both.1, both.2] at not
        cases not
      additionalPorts := stored.additionalPorts
      portMappings := stored.portMappings.fit }

def KeepsNoPorts (existing : List ContainerService) (request : ServiceRequest) : Prop :=
  ∀ stored, lookup (·.name) (Text.trim request.name) existing.reverse = some stored →
    resolveServiceType request stored.serviceType = .ok .cronJob →
      (request.additionalPorts = none → stored.additionalPorts = []) ∧
      (request.portMappings = none → stored.portMappings = [])

section Ports

variable {crates : Crates} {appId : Uuid} {existing : List ContainerService} {isAdmin : Bool}
  {request : ServiceRequest} {origin service : ContainerService} {serviceType : ServiceType}
  {schedule : Option String}

/-- The ports of a cron job are the ones it started with, where the request is silent. -/
theorem Round.cron_ports
    (round : Round crates appId existing isAdmin request origin serviceType schedule service)
    (isCron : serviceType = .cronJob) :
    service.additionalPorts = (if request.additionalPorts = none then origin.additionalPorts else []) ∧
      service.portMappings = if request.portMappings = none then origin.portMappings else [] := by
  obtain ⟨-, -, -, cron, -⟩ := check_service_kind_iff.mp round.fits
  obtain ⟨-, -, silent, -⟩ := cron isCron
  constructor
  · rw [(normalize_additional_ports_iff.mp round.configured.additionalPorts).1]
    cases asked : request.additionalPorts with
    | none => rfl
    | some ports =>
        rw [asked] at silent
        simpa using silent
  · have resolved := round.configured.portMappings
    cases asked : request.portMappings with
    | none =>
        rw [asked] at resolved
        exact (Except.ok.inj resolved).symm
    | some requests =>
        rw [asked, isCron] at resolved
        unfold resolvePortMappings at resolved
        simp only [except_bind_iff, refused_iff, returned_iff] at resolved
        obtain ⟨mappings, -, none, same⟩ := resolved
        rw [same]
        simpa using none

theorem Round.unported_iff
    (round : Round crates appId existing isAdmin request origin serviceType schedule service) :
    Unported service ↔ KeepsNoPorts existing request := by
  have kind := round.configured.kind
  constructor
  · intro unported stored found isCron
    have same : origin = stored := by
      cases round.starts with
      | stored other => exact Option.some.inj (other.symm.trans found)
      | new missing => cases missing.symm.trans found
    rw [← same] at isCron ⊢
    have cron : serviceType = .cronJob := Except.ok.inj (round.resolved.symm.trans isCron)
    obtain ⟨additional, mapped⟩ := unported (kind.trans cron)
    obtain ⟨keptPorts, keptMappings⟩ := round.cron_ports cron
    constructor
    · intro silent
      rw [if_pos silent] at keptPorts
      exact keptPorts.symm.trans additional
    · intro silent
      rw [if_pos silent] at keptMappings
      exact keptMappings.symm.trans mapped
  · intro keepsNone isCron
    have cron : serviceType = .cronJob := kind.symm.trans isCron
    obtain ⟨keptPorts, keptMappings⟩ := round.cron_ports cron
    rw [keptPorts, keptMappings]
    cases round.starts with
    | stored found =>
        obtain ⟨additional, mapped⟩ := keepsNone origin found (cron ▸ round.resolved)
        constructor
        · split_ifs with silent
          · exact additional silent
          · rfl
        · split_ifs with silent
          · exact mapped silent
          · rfl
    | new missing id now appId image port => exact ⟨ite_self _, ite_self _⟩

/-- In one call. -/
theorem Rounds.well_formed_iff {requests : List ServiceRequest} {services : List ContainerService}
    (rounds : Rounds crates appId existing isAdmin requests services)
    (stored : ∀ service ∈ services, Stored crates appId service) :
    (∀ service ∈ services, WellFormed service) ↔ ∀ request ∈ requests,
      KeepsNoPorts existing request := by
  induction rounds with
  | nil => simp
  | @cons request service requests services first rest ih =>
      obtain ⟨origin, serviceType, schedule, round⟩ := first
      have others := ih fun other member => stored other (List.mem_cons_of_mem _ member)
      rw [List.forall_mem_cons, List.forall_mem_cons, others,
        (stored service List.mem_cons_self).well_formed_iff, round.unported_iff]

end Ports

/-- In every sequence of accepted calls all services are well formed exactly when no request
makes a stored service a cron job and leaves its ports in place. -/
theorem services_well_formed_iff {crates : Crates} {appId : Uuid} {calls : List BuildCall}
    {services : List ContainerService} (reached : Reachable crates appId calls services) :
    (∀ call ∈ calls, ∀ service ∈ call.services, WellFormed service) ↔
      ∀ call ∈ calls, ∀ request ∈ call.requests, KeepsNoPorts call.existing request := by
  apply forall₂_congr
  intro call member
  obtain ⟨kept, isAdmin, rounds⟩ := reached.call member
  exact rounds.well_formed_iff (rounds.stored kept)

/-- The services a call returns when nothing fails. -/
def demoBuilt (existing : List ContainerService) (request : ServiceRequest) :
    Option (List ContainerService) :=
  ((buildServices demoCrates ⟨1⟩ existing [request] false).run.run system calm
    World.empty).1.toOption

theorem demo_built_yields {existing services : List ContainerService} {request : ServiceRequest}
    (built : demoBuilt existing request = some services) :
    (buildServices demoCrates ⟨1⟩ existing [request] false).run.Yields (.ok services) := by
  have run := runs_run system calm calm_admitted
    (buildServices demoCrates ⟨1⟩ existing [request] false).run World.empty
  rw [← ok_of_to_option built]
  exact run.yields

def demoWebRequest : ServiceRequest :=
  { demoServiceRequest "job" with
    serviceType := some "web_service"
    additionalPorts := some [9090]
    portMappings := some [⟨8443, 9090, none⟩] }

def demoCronRequest : ServiceRequest :=
  { demoServiceRequest "job" with
    serviceType := some "cron_job"
    port := 0
    schedule := some "0 * * * *" }

/-- What the first call stores. -/
def demoWeb : ContainerService :=
  { ContainerService.new ⟨1⟩ 0 ⟨1⟩ "job" "nginx" 80 with
    serviceType := .webService
    exposeHttp := true
    additionalPorts := [9090]
    portMappings := [⟨8443, 9090, .tcp⟩] }

/-- What the second call stores with these ports left. -/
def demoCron (additionalPorts : List Nat) (portMappings : List PortMapping) : ContainerService :=
  { ContainerService.new ⟨1⟩ 0 ⟨1⟩ "job" "nginx" 0 with
    serviceType := .cronJob
    schedule := some "0 * * * *"
    additionalPorts := additionalPorts
    portMappings := portMappings }

theorem renamed_refl (services : List ContainerService) : Renamed services services := by
  induction services with
  | nil => exact .nil
  | cons service services ih => exact .cons ⟨service.name, rfl⟩ ih

theorem demo_reachable {request : ServiceRequest} {services : List ContainerService}
    (built : demoBuilt [demoWeb] request = some services) :
    Reachable demoCrates ⟨1⟩ [⟨[], [demoWebRequest], [demoWeb]⟩, ⟨[demoWeb], [request], services⟩]
      services := by
  have first : demoBuilt [] demoWebRequest = some [demoWeb] := by decide +kernel
  exact .build (.build .none .nil (demo_built_yields first)) (renamed_refl _)
    (demo_built_yields built)

/-- The service that named its ports as a cron job has none. -/
theorem cron_job_well_formed :
    ∃ calls services, Reachable demoCrates ⟨1⟩ calls services ∧ services = [demoCron [] []] ∧
      ∀ call ∈ calls, ∀ service ∈ call.services, WellFormed service := by
  have built : demoBuilt [demoWeb]
      { demoCronRequest with additionalPorts := some [], portMappings := some [] } =
      some [demoCron [] []] := by decide +kernel
  refine ⟨_, _, demo_reachable built, rfl, ?_⟩
  apply (services_well_formed_iff (demo_reachable built)).mpr
  intro call member request asked stored found _
  rcases List.mem_cons.mp member with first | second
  · rw [first] at found
    cases found
  · rw [List.mem_singleton.mp second] at asked
    rw [List.mem_singleton.mp asked]
    exact ⟨nofun, nofun⟩

/-- The service that did not name them has kept them. -/
theorem cron_job_keeps_ports :
    ∃ calls services service, Reachable demoCrates ⟨1⟩ calls services ∧ service ∈ services ∧
      service = demoCron [9090] [⟨8443, 9090, .tcp⟩] ∧ ¬WellFormed service := by
  have built : demoBuilt [demoWeb] demoCronRequest =
      some [demoCron [9090] [⟨8443, 9090, .tcp⟩]] := by decide +kernel
  refine ⟨_, _, _, demo_reachable built, List.mem_singleton_self _, rfl, ?_⟩
  intro wellFormed
  obtain ⟨-, -, -, none, -⟩ := wellFormed.cron rfl
  cases none

end Containr.Api
