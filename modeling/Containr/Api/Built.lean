import Containr.Api.BuildServices
import Containr.Worker.Footprint

/-!
# What `build_services` returns

One service for each request, under the trimmed name of the request and with the id of the
stored service of that name, or with an id that was drawn for it. No name is given twice.
-/

namespace Containr.Api

open Containr.Effect Containr.Effect.Program Containr.Worker

/-- Nothing is written and no container is touched. -/
def Op.Reading : Op → Prop
  | .query _ | .external _ | .newUuid | .utcNow => True
  | _ => False

def Op.Looking : Op → Prop
  | .query (.app _) => False
  | op => Op.Reading op

class Op.Allows (allowed : Op → Prop) : Prop where
  looking : ∀ op, Op.Looking op → allowed op

theorem reading_of_looking (op : Op) (looking : Op.Looking op) : Op.Reading op := by
  cases op with
  | query wanted => trivial
  | _ => exact looking

instance : Op.Allows Op.Reading := ⟨reading_of_looking⟩

instance : Op.Allows Op.Looking := ⟨fun _ looking => looking⟩

theorem looks {allowed : Op → Prop} [allows : Op.Allows allowed] {op : Op}
    (looking : Op.Looking op) : allowed op := allows.looking op looking

/-- Every id that is drawn is one of `drawn`. -/
def Draws (drawn : Uuid → Prop) : (op : Op) → op.Answer → Prop
  | .newUuid, id => drawn id
  | _, _ => True

section Reading

variable {Value : Type} {drawn : Uuid → Prop} {allowed : Op → Prop}

theorem reading_under {program : Sys Value} (calls : program.Calls allowed) :
    program.Under (Draws drawn) allowed fun _ => True := calls.under

variable [Op.Allows allowed]

theorem utc_now_reading : utcNow.Calls allowed := op_calls (looks (by trivial))

variable {expects : (op : Op) → op.Answer → Prop}

theorem checked_under {result : Checked Value} {post : Value → Prop} {allowed : Op → Prop}
    (held : ∀ value, result = .ok value → post value) :
    (checked result).run.Under expects allowed (OnOk post) := by
  apply under_pure.mpr
  cases result with
  | ok value => exact held value rfl
  | error error => trivial

theorem ensure_under {Error : Type} {condition : Bool} {error : Error} {allowed : Op → Prop} :
    (ensure condition error).run.Under expects allowed (OnOk fun _ => condition = true) := by
  cases condition with
  | true => exact under_return rfl
  | false => exact under_throw _ _

theorem checked_calls (result : Checked Value) {allowed : Op → Prop} :
    (checked result).run.Calls allowed := calls_pure _

theorem basic_auth_password_hash_reading (password : Option String) (existing : Option BasicAuth) :
    (basicAuthPasswordHash password existing).run.Calls allowed := by
  unfold basicAuthPasswordHash
  split
  · exact or_internal_calls (op_calls (looks (by trivial)))
  · exact calls_run_pure _
  · exact calls_run_throw _

theorem resolve_service_basic_auth_reading (value : Option (Option BasicAuthRequest))
    (existing : Option BasicAuth) :
    (resolveServiceBasicAuth value existing).run.Calls allowed := by
  unfold resolveServiceBasicAuth
  split
  · exact calls_run_pure _
  · exact calls_run_pure _
  · split
    · exact calls_run_pure _
    · apply Calls.run_bind (ensure_calls _ _)
      intro _
      exact Calls.run_return (basic_auth_password_hash_reading _ _)

theorem registry_password_reading (password : Option String)
    (existing : Option ServiceRegistryAuth) :
    (registryPassword password existing).run.Calls allowed := by
  unfold registryPassword
  split
  · apply Calls.bind (op_calls (looks (by trivial)))
    intro result
    exact calls_pure _
  · exact calls_run_pure _
  · exact calls_run_throw _

theorem build_service_registry_auth_reading (existing : Option ServiceRegistryAuth)
    (request : Option ServiceRegistryAuthRequest) :
    (buildServiceRegistryAuth existing request).run.Calls allowed := by
  unfold buildServiceRegistryAuth
  split
  · exact calls_run_pure _
  · dsimp only
    split
    · exact calls_run_pure _
    · split
      · exact calls_run_throw _
      · exact Calls.run_return (registry_password_reading _ _)

end Reading

inductive Origin (existing : List ContainerService) (drawn : Uuid → Prop) (name : String)
    (origin : ContainerService) : Prop where
  | stored (found : lookup (·.name) name existing.reverse = some origin)
  | new (missing : lookup (·.name) name existing.reverse = none) (issued : drawn origin.id)
      (bare : origin.domains = [])

structure BuiltFrom (crates : Crates) (appId : Uuid) (name : String) (request : ServiceRequest)
    (origin service : ContainerService) : Prop where
  sameId : service.id = origin.id
  sameApp : service.appId = appId
  named : service.name = name
  domains : ∀ domain ∈ service.domains,
    domain ∈ (requestedServiceDomains crates request).getD origin.customDomains

def Built (crates : Crates) (appId : Uuid) (existing : List ContainerService)
    (drawn : Uuid → Prop) (request : ServiceRequest) (service : ContainerService) : Prop :=
  ∃ origin, Origin existing drawn (Text.trim request.name) origin ∧
    BuiltFrom crates appId (Text.trim request.name) request origin service

section Build

variable {crates : Crates} {appId : Uuid} {existing : List ContainerService}
  {drawn : Uuid → Prop} {isAdmin : Bool} {allowed : Op → Prop} [Op.Allows allowed]

theorem existing_or_new_under (name : String) (request : ServiceRequest) :
    (existingOrNew appId existing name request).Under (Draws drawn) allowed
      (Origin existing drawn name) := by
  unfold existingOrNew
  cases found : lookup (·.name) name existing.reverse with
  | some service =>
      apply under_pure.mpr
      exact .stored found
  | none =>
      apply under_bind.mpr
      apply under_op (looks (by trivial))
      intro id issued
      apply under_bind.mpr
      apply under_op (looks (by trivial))
      intro now _
      apply under_pure.mpr
      exact .new found issued rfl

theorem service_domains_mem {serviceType : ServiceType} {requested : Option (List String)}
    {service : ContainerService} {domain : String}
    (member : domain ∈ serviceDomains serviceType requested service) :
    domain ∈ requested.getD service.customDomains := by
  unfold serviceDomains at member
  split_ifs at member with web
  · exact member
  · cases member

theorem configure_service_under (name : String) (request : ServiceRequest)
    (origin : ContainerService) (serviceType : ServiceType) (schedule : Option String) :
    (configureService crates appId isAdmin name request origin serviceType schedule).run.Under
      (Draws drawn) allowed (OnOk (BuiltFrom crates appId name request origin)) := by
  have silent : ∀ {Value : Type} (result : Checked Value),
      (checked result).run.Under (Draws drawn) allowed (OnOk fun _ => True) :=
    fun result => (checked_calls result).under_ok
  unfold configureService
  apply under_chain (silent _)
  intro additionalPorts _
  apply under_chain (build_service_registry_auth_reading _ _).under_ok
  intro registryAuth _
  apply under_chain (silent _)
  intro envVars _
  apply under_chain (silent _)
  intro buildContext _
  apply under_chain (silent _)
  intro dockerfilePath _
  apply under_chain (silent _)
  intro buildArgs _
  apply under_chain (silent _)
  intro workingDir _
  apply under_chain (silent _)
  intro mounts _
  apply under_chain (silent _)
  intro notes _
  apply under_chain (resolve_service_basic_auth_reading _ _).under_ok
  intro basicAuth _
  apply under_chain (silent _)
  intro loginGate _
  apply under_chain ensure_under
  intro _ _
  apply under_chain (silent _)
  intro portMappings _
  apply under_chain (silent _)
  intro files _
  apply under_lift_chain (reading_under utc_now_reading)
  intro now _
  apply under_return
  exact ⟨rfl, rfl, rfl, fun domain member => service_domains_mem member⟩

theorem build_service_under (request : ServiceRequest) :
    (buildService crates appId existing isAdmin (Text.trim request.name) request).run.Under
      (Draws drawn) allowed (OnOk (Built crates appId existing drawn request)) := by
  unfold buildService
  apply under_lift_chain (existing_or_new_under _ request)
  intro origin came
  apply under_chain (checked_calls _).under_ok
  intro serviceType _
  apply under_chain (checked_calls _).under_ok
  intro schedule _
  apply under_chain (checked_calls _).under_ok
  intro _ _
  apply (configure_service_under _ request origin serviceType schedule).ok_mono
  intro service built
  exact ⟨origin, came, built⟩

structure AllBuilt (crates : Crates) (appId : Uuid) (existing : List ContainerService)
    (drawn : Uuid → Prop) (seen : List String) (requests : List ServiceRequest)
    (services : List ContainerService) : Prop where
  each : List.Forall₂ (Built crates appId existing drawn) requests services
  distinct : (services.map (·.name)).Nodup
  fresh : ∀ service ∈ services, service.name ∉ seen

theorem build_each_under (seen : List String) (requests : List ServiceRequest) :
    (buildEach crates appId existing isAdmin seen requests).run.Under (Draws drawn) allowed
      (OnOk (AllBuilt crates appId existing drawn seen requests)) := by
  induction requests generalizing seen with
  | nil =>
      apply under_return
      exact ⟨.nil, List.nodup_nil, by simp⟩
  | cons request requests ih =>
      unfold buildEach
      dsimp only
      apply under_chain ensure_under
      intro _ _
      apply under_chain ensure_under
      intro _ unseen
      apply under_chain (build_service_under request)
      intro service built
      apply under_chain (ih (Text.trim request.name :: seen))
      intro others rest
      apply under_return
      have named : service.name = Text.trim request.name := by
        obtain ⟨origin, -, from_⟩ := built
        exact from_.named
      have unused : Text.trim request.name ∉ seen := by simpa using unseen
      refine ⟨.cons built rest.each, ?_, ?_⟩
      · rw [List.map_cons, List.nodup_cons]
        refine ⟨fun member => ?_, rest.distinct⟩
        obtain ⟨other, inOthers, sameName⟩ := List.mem_map.mp member
        apply rest.fresh other inOthers
        rw [sameName, named]
        exact List.mem_cons_self
      · intro other member
        rcases List.mem_cons.mp member with same | later
        · rw [same, named]
          exact unused
        · exact fun old => rest.fresh other later (List.mem_cons_of_mem _ old)

theorem build_services_under (requests : List ServiceRequest) :
    (buildServices crates appId existing requests isAdmin).run.Under (Draws drawn) allowed
      (OnOk (AllBuilt crates appId existing drawn [] requests)) := by
  unfold buildServices
  apply under_chain ensure_under
  intro _ _
  exact build_each_under [] requests

end Build

/-- Every built service belongs to the app and has the trimmed name of a request. -/
theorem AllBuilt.mem {crates : Crates} {appId : Uuid} {existing : List ContainerService}
    {drawn : Uuid → Prop} {seen : List String} {requests : List ServiceRequest}
    {services : List ContainerService}
    (built : AllBuilt crates appId existing drawn seen requests services)
    {service : ContainerService} (member : service ∈ services) :
    ∃ request ∈ requests, Built crates appId existing drawn request service := by
  have each := built.each
  clear built
  induction each with
  | nil => cases member
  | cons first rest ih =>
      rcases List.mem_cons.mp member with same | later
      · rw [same]
        exact ⟨_, List.mem_cons_self, first⟩
      · obtain ⟨request, inRequests, found⟩ := ih later
        exact ⟨request, List.mem_cons_of_mem _ inRequests, found⟩

end Containr.Api
