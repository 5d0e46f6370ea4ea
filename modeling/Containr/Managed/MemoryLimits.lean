import Containr.Api.Replicas
import Containr.Api.ServiceSettings
import Containr.Api.WellFormed
import Containr.Managed.Databases

/-!
# Memory limits, from the request to docker

A request asks for megabytes. The product in bytes is a `u64` that wraps in a release build; on its
way to docker it becomes an `i64`, by a cast for a service, by a checked conversion for a database,
and for a queue by a cast of the megabytes it is divided back to. What docker does with the number is a
parameter.
-/

namespace Containr.Managed.MemoryLimits

open Containr.Api Containr.Effect Containr.Managed.Databases

/-- The `memory` of the host configuration in `create_container`. -/
def hostMemory (config : DockerContainerConfig) : Option Int := config.memoryLimit.map asI64

inductive ConfigOf (service : ContainerService) : DockerContainerConfig → Prop
  | replica (app : App) (deployment : Deployment) (image : String) (replica : Nat)
      (mounts : List DockerBindMount) :
      ConfigOf service (Services.replicaConfig app service deployment image replica mounts)
  | rollout (plan : Worker.Plan) (replica : Nat) (image : String) (mounts : List DockerBindMount) :
      ConfigOf service (plan.config service replica image mounts)
  | cron (app : App) (image name : String) (shared : List (String × String))
      (mounts : List DockerBindMount) :
      ConfigOf service (Cron.cronConfig app service image name shared mounts)

/-- `u64_to_i64`. -/
def u64ToI64 (value : Nat) (field : String) : Except String Int :=
  if value < 2 ^ 63 then .ok value
  else .error ("operation failed: invalid " ++ field ++ " value: " ++ toString value)

def databaseMemory (db : ManagedDatabase) : Except String Int :=
  u64ToI64 db.memoryLimit "database memory_limit"

inductive QueueType where
  | rabbitmq | nats
deriving DecidableEq, Repr

def QueueType.defaultMemoryLimit : QueueType → Nat
  | .rabbitmq => 512 * 1024 * 1024
  | .nats => 256 * 1024 * 1024

def queueMemoryLimit (queueType : QueueType) (memoryLimitMb : Option Nat) : Nat :=
  (memoryLimitMb.map (· * 1024 * 1024 % 2 ^ 64)).getD queueType.defaultMemoryLimit

/-- `i64` multiplication, which wraps. -/
def mulI64 (left right : Int) : Int := (left * right).bmod (2 ^ 64)

def queueMemory (memoryLimit : Nat) : Int :=
  mulI64 (mulI64 (asI64 (memoryLimit / (1024 * 1024))) 1024) 1024

structure Documented (starts : Int → Bool) : Prop where
  refuses : ∀ limit, limit ≠ 0 → limit < 6 * 1024 * 1024 → starts limit = false
  takes : ∀ limit, limit = 0 ∨ 6 * 1024 * 1024 ≤ limit → starts limit = true

def ExactLimit (megabytes : Nat) (limit : Int) : Prop :=
  limit = megabytes * 1024 * 1024 ∧ 0 < limit ∧ limit < 2 ^ 63

/-- The start is refused, or docker has the limit and `shown` holds. -/
def Met (starts : Int → Bool) (megabytes : Nat) (shown : Prop) : Except String (Option Int) → Prop
  | .error _ => True
  | .ok none => False
  | .ok (some limit) => starts limit = false ∨ ExactLimit megabytes limit ∧ shown

def ServiceMet (starts : Int → Bool) (megabytes : Nat) (service : ContainerService)
    (config : DockerContainerConfig) : Prop :=
  Met starts megabytes ((serviceSettingsServiceResponse service).memoryLimitMb = some megabytes)
    (.ok (hostMemory config))

def DatabaseMet (starts : Int → Bool) (megabytes : Nat) (db : ManagedDatabase) : Prop :=
  Met starts megabytes True ((databaseMemory db).map some)

def QueueMet (starts : Int → Bool) (megabytes memoryLimit : Nat) : Prop :=
  Met starts megabytes True (.ok (some (queueMemory memoryLimit)))

/-- The number is not 0 and does not wrap, or what is left of it when it wraps is refused: it is below
6, or negative as an `i64`. -/
def Fits (megabytes : Nat) : Prop :=
  0 < megabytes ∧ megabytes < 2 ^ 44 ∨
    0 < megabytes % 2 ^ 44 ∧ (megabytes % 2 ^ 44 < 6 ∨ 2 ^ 43 ≤ megabytes % 2 ^ 44)

section Words

variable {megabytes : Nat}

/-- What is left of the product. -/
theorem bytes_wrap (megabytes : Nat) :
    megabytes * 1024 * 1024 % 2 ^ 64 = megabytes % 2 ^ 44 * 1024 * 1024 := by omega

theorem bytes_back (megabytes : Nat) :
    megabytes * 1024 * 1024 % 2 ^ 64 / 1024 / 1024 = megabytes % 2 ^ 44 := by omega

theorem cast_bytes (megabytes : Nat) : asI64 (megabytes * 1024 * 1024 % 2 ^ 64) =
    if megabytes % 2 ^ 44 < 2 ^ 43 then ((megabytes % 2 ^ 44 * 1024 * 1024 : Nat) : Int)
    else (megabytes % 2 ^ 44 * 1024 * 1024 : Nat) - 2 ^ 64 := by
  unfold asI64
  rw [Nat.mod_mod, bytes_wrap]
  split_ifs <;> omega

/-- A queue divides the limit back and multiplies again: it is the same number. -/
theorem queue_memory_cast (megabytes : Nat) :
    queueMemory (megabytes * 1024 * 1024 % 2 ^ 64) = asI64 (megabytes * 1024 * 1024 % 2 ^ 64) := by
  have left : megabytes * 1024 * 1024 % 2 ^ 64 / (1024 * 1024) = megabytes % 2 ^ 44 := by omega
  have small : asI64 (megabytes % 2 ^ 44) = (megabytes % 2 ^ 44 : Nat) := as_i64_small (by omega)
  unfold queueMemory mulI64
  rw [left, small, cast_bytes]
  simp only [Int.bmod_def]
  split_ifs <;> omega

end Words

section Kinds

variable {starts : Int → Bool} (documented : Documented starts) {megabytes : Nat}

include documented

theorem cast_met {shown : Prop} (isShown : megabytes < 2 ^ 44 → shown) :
    starts (asI64 (megabytes * 1024 * 1024 % 2 ^ 64)) = false ∨
        ExactLimit megabytes (asI64 (megabytes * 1024 * 1024 % 2 ^ 64)) ∧ shown ↔
      Fits megabytes := by
  rw [cast_bytes]
  unfold ExactLimit Fits
  by_cases positive : megabytes % 2 ^ 44 < 2 ^ 43
  · rw [if_pos positive]
    constructor
    · intro met
      rcases met with refused | ⟨exact, -⟩
      · by_contra other
        rw [documented.takes _ (by omega)] at refused
        cases refused
      · omega
    · intro fits
      by_cases whole : 0 < megabytes ∧ megabytes < 2 ^ 44
      · exact Or.inr ⟨by omega, isShown whole.2⟩
      · exact Or.inl (documented.refuses _ (by omega) (by omega))
  · rw [if_neg positive]
    have negative : starts ((megabytes % 2 ^ 44 * 1024 * 1024 : Nat) - 2 ^ 64) = false :=
      documented.refuses _ (by omega) (by omega)
    constructor
    · intro _
      omega
    · intro _
      exact Or.inl negative

theorem service_met {request : ServiceRequest} {service : ContainerService}
    {config : DockerContainerConfig} (asked : request.memoryLimitMb = some megabytes)
    (stored : service.memoryLimit =
      request.memoryLimitMb.map fun value => value * 1024 * 1024 % 2 ^ 64)
    (started : ConfigOf service config) :
    ServiceMet starts megabytes service config ↔ Fits megabytes := by
  have limit : config.memoryLimit = service.memoryLimit := by
    cases started <;> rfl
  rw [asked] at stored
  have shown : (serviceSettingsServiceResponse service).memoryLimitMb =
      some (megabytes % 2 ^ 44) := by
    unfold serviceSettingsServiceResponse
    rw [stored, Option.map_some, Option.map_some, bytes_back]
  unfold ServiceMet hostMemory
  rw [limit, stored, shown]
  apply cast_met documented
  intro small
  rw [Nat.mod_eq_of_lt small]

theorem database_met {form : CreateDatabase} (asked : form.memoryLimitMb = some megabytes)
    (id userId : Uuid) (dataDir : String) :
    DatabaseMet starts megabytes (form.record id userId dataDir) ↔ Fits megabytes := by
  have stored : (form.record id userId dataDir).memoryLimit =
      megabytes * 1024 * 1024 % 2 ^ 64 := by
    unfold CreateDatabase.record
    rw [asked]
    rfl
  have met := @cast_met starts documented megabytes True (fun _ => trivial)
  unfold DatabaseMet databaseMemory u64ToI64
  rw [stored]
  split_ifs with small
  · rw [as_i64_small small] at met
    exact met
  · have fits : Fits megabytes := by
      unfold Fits
      omega
    exact ⟨fun _ => fits, fun _ => trivial⟩

theorem queue_met (queueType : QueueType) :
    QueueMet starts megabytes (queueMemoryLimit queueType (some megabytes)) ↔ Fits megabytes := by
  have stored : queueMemoryLimit queueType (some megabytes) = megabytes * 1024 * 1024 % 2 ^ 64 := rfl
  unfold QueueMet
  rw [stored, queue_memory_cast]
  exact cast_met documented fun _ => trivial

end Kinds

/-- For services, databases and queues alike the limit of a request is exact or refused exactly
when its number fits. -/
theorem memory_limits_exact_iff {starts : Int → Bool} (documented : Documented starts)
    (megabytes : Nat) :
    (∀ crates appId existing isAdmin requests services,
        (buildServices crates appId existing requests isAdmin).run.Yields (.ok services) →
          List.Forall₂ (fun request service => request.memoryLimitMb = some megabytes →
            ∀ config, ConfigOf service config →
              (ServiceMet starts megabytes service config ↔ Fits megabytes)) requests services) ∧
      (∀ (form : CreateDatabase) id userId dataDir, form.memoryLimitMb = some megabytes →
        (DatabaseMet starts megabytes (form.record id userId dataDir) ↔ Fits megabytes)) ∧
      ∀ queueType, QueueMet starts megabytes (queueMemoryLimit queueType (some megabytes)) ↔
        Fits megabytes := by
  refine ⟨?_, ?_, queue_met documented⟩
  · intro crates appId existing isAdmin requests services yields
    have rounds := (build_services_rounds yields).1
    apply rounds.imp
    intro request service round asked config started
    obtain ⟨origin, serviceType, schedule, round⟩ := round
    exact service_met documented asked round.configured.memory started
  · intro form id userId dataDir asked
    exact database_met documented asked id userId dataDir

def demoStarts (limit : Int) : Bool := limit = 0 || 6 * 1024 * 1024 ≤ limit

theorem demo_documented : Documented demoStarts where
  refuses limit nonzero small := by
    unfold demoStarts
    simp only [Bool.or_eq_false_iff, decide_eq_false_iff_not]
    omega
  takes limit large := by
    unfold demoStarts
    simpa using large

def demoForm : CreateDatabase :=
  { name := "main", dbType := .postgresql, version := none
    memoryLimitMb := some (2 ^ 44 + 512), groupId := none }

/-- Docker starts the database with 512 megabytes. -/
theorem wrapped_limit_starts :
    databaseMemory (demoForm.record ⟨1⟩ ⟨2⟩ "/data") = .ok (512 * 1024 * 1024) ∧
      demoStarts (512 * 1024 * 1024) = true ∧
      ¬DatabaseMet demoStarts (2 ^ 44 + 512) (demoForm.record ⟨1⟩ ⟨2⟩ "/data") := by
  refine ⟨by decide +kernel, by decide, ?_⟩
  intro met
  have fits := (database_met demo_documented rfl _ _ _).mp met
  exact absurd fits (by unfold Fits; omega)

def demoLimited : ServiceRequest :=
  { Services.demoServiceRequest "web" with memoryLimitMb := some 512 }

theorem demo_memory_limits_exact :
    (∃ service, demoBuilt [] demoLimited = some [service] ∧
      ∀ config, ConfigOf service config → ServiceMet demoStarts 512 service config) ∧
    (∀ id userId dataDir, DatabaseMet demoStarts 512
      ({ demoForm with memoryLimitMb := some 512 }.record id userId dataDir)) ∧
    ∀ queueType, QueueMet demoStarts 512 (queueMemoryLimit queueType (some 512)) := by
  have fits : Fits 512 := by
    unfold Fits
    omega
  obtain ⟨services, forms, queues⟩ := memory_limits_exact_iff demo_documented 512
  refine ⟨?_, fun id userId dataDir => (forms _ id userId dataDir rfl).mpr fits,
    fun queueType => (queues queueType).mpr fits⟩
  have single : (demoBuilt [] demoLimited).map List.length = some 1 := by decide +kernel
  obtain ⟨built, isBuilt, one⟩ := Option.map_eq_some_iff.mp single
  obtain ⟨service, rfl⟩ := List.length_eq_one_iff.mp one
  have rounds := services _ _ _ _ _ _ (demo_built_yields isBuilt)
  exact ⟨service, isBuilt, fun config started =>
    ((List.forall₂_cons.mp rounds).1 rfl config started).mpr fits⟩

end Containr.Managed.MemoryLimits
