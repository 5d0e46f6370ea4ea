import Containr.Api.Replicas
import Containr.Proxy.Refresh
import Containr.Rollout.Names
import Containr.Segments
import Containr.Trimming

/-!
# `containr-{app}-{service}-{replica}-{id}`

The worker and the app service manager give replicas the same names. A service name is
free text; the two fields behind it hold no hyphen, so the name is read from its end.
-/

namespace Containr.Api.ContainerNames

open Containr.Worker Containr.Rollout Containr.Proxy Containr.Segments
open Containr.Api.Services (replicaContainerName)

def servicePrefix (app : App) (serviceName : String) : String :=
  "containr-" ++ app.id.toString ++ "-" ++ serviceName ++ "-"

variable (app : App) (service : ContainerService) (replica : Nat) (id : Uuid)

theorem short_id_plain : '-' ∉ (shortDeploymentId id).toList := by
  intro member
  rw [short_id_chars] at member
  exact hex_char_ne_hyphen (hex_digits_chars (List.mem_of_mem_take member)) rfl

theorem short_id_length : (shortDeploymentId id).toList.length = 8 := by
  rw [short_id_chars, List.length_take, hex_digits_length]
  rfl

theorem short_id_hex : (shortDeploymentId id).toList.all Text.isAsciiHexdigit = true := by
  apply List.all_eq_true.mpr
  intro ch member
  rw [short_id_chars] at member
  have isHex := hex_digits_chars (List.mem_of_mem_take member)
  simp only [isHexChar, Bool.or_eq_true, Bool.and_eq_true, decide_eq_true_eq] at isHex
  unfold Text.isAsciiHexdigit
  simp only [Bool.or_eq_true, Bool.and_eq_true, decide_eq_true_eq]
  exact Or.inl isHex

/-- The manager takes what stands before the first hyphen, the worker eight digits. -/
theorem replica_container_name_eq (deployment : Deployment) (replica : Nat) :
    replicaContainerName app service deployment replica =
      containerName app service replica deployment.id := by
  have short : Cron.shortId deployment.id.toString = shortDeploymentId deployment.id := by
    apply String.toList_inj.mp
    rw [short_id_chars, Cron.shortId, String.toList_ofList, uuid_take_while]
    rfl
  unfold replicaContainerName containerName
  rw [short]

theorem container_name_eq : containerName app service replica id =
      servicePrefix app service.name ++ (toString replica ++ "-" ++ shortDeploymentId id) := by
  unfold containerName servicePrefix
  simp only [String.append_assoc]

theorem fields_chars : (containerName app service replica id).toList =
      ("containr-" ++ app.id.toString ++ "-").toList ++
        ((service.name.toList ++ '-' :: (toString replica).toList) ++
          '-' :: (shortDeploymentId id).toList) := by
  unfold containerName
  simp [String.toList_append]

/-- All fields are determined. -/
theorem container_name_eq_iff {app other : App} (bits : app.id.value < 2 ^ 128)
    (otherBits : other.id.value < 2 ^ 128) (service sibling : ContainerService)
    (replica index : Nat) (id again : Uuid) :
    containerName app service replica id = containerName other sibling index again ↔
      app.id = other.id ∧ service.name = sibling.name ∧ replica = index ∧
        shortDeploymentId id = shortDeploymentId again := by
  constructor
  · intro same
    have lists := congrArg String.toList same
    rw [fields_chars, fields_chars] at lists
    have fronts : ("containr-" ++ app.id.toString ++ "-").toList.length =
        ("containr-" ++ other.id.toString ++ "-").toList.length := by
      simp only [String.toList_append, List.length_append, uuid_chars_length]
    obtain ⟨front, fields⟩ := List.append_inj lists fronts
    have ids : app.id.toString = other.id.toString :=
      (String.append_right_inj "containr-").mp
        ((String.append_left_inj "-").mp (String.toList_injective front))
    obtain ⟨named, short⟩ :=
      (append_mark_inj (short_id_plain id) (short_id_plain again)).mp fields
    obtain ⟨name, number⟩ := (append_mark_inj (repr_plain replica) (repr_plain index)).mp named
    refine ⟨?_, String.toList_injective name, repr_inj.mp (String.toList_injective number),
      String.toList_injective short⟩
    rw [← uuid_read bits, ← uuid_read otherBits, ids]
  · intro fields
    obtain ⟨ids, name, number, short⟩ := fields
    unfold containerName
    rw [ids, name, number, short]

theorem container_name_inj {app : App} {service : ContainerService} {id : Uuid}
    {replica other : Nat}
    (same : containerName app service replica id = containerName app service other id) :
    replica = other := by
  have lists := congrArg String.toList same
  rw [fields_chars, fields_chars] at lists
  have fields := List.append_cancel_left lists
  have named := ((append_mark_inj (short_id_plain id) (short_id_plain id)).mp fields).1
  have number := ((append_mark_inj (repr_plain replica) (repr_plain other)).mp named).2
  exact repr_inj.mp (String.toList_injective number)

/-- Where the prefix of a service name can end in the name of a container. -/
theorem service_prefix_iff (name rest : String) :
    containerName app service replica id = servicePrefix app name ++ rest ↔
      (service.name = name ∧ rest = toString replica ++ "-" ++ shortDeploymentId id) ∨
      (name = service.name ++ "-" ++ toString replica ∧ rest = shortDeploymentId id) ∨
      ∃ more, service.name = name ++ "-" ++ more ∧
        rest = more ++ "-" ++ toString replica ++ "-" ++ shortDeploymentId id := by
  have chars : containerName app service replica id = servicePrefix app name ++ rest ↔
      (service.name.toList ++ '-' :: (toString replica).toList) ++
        '-' :: (shortDeploymentId id).toList = name.toList ++ '-' :: rest.toList := by
    rw [← String.toList_inj, fields_chars]
    unfold servicePrefix
    simp [String.toList_append]
  rw [chars, append_mark_iff (short_id_plain id)]
  simp only [← String.toList_inj, String.toList_append]
  constructor
  · intro cases
    rcases cases with ⟨named, last⟩ | ⟨more, named, last⟩
    · exact Or.inr (Or.inl ⟨by simp [← named], last.symm⟩)
    · rcases (append_mark_iff (repr_plain replica)).mp named with ⟨same, number⟩ | ⟨own, same, rest⟩
      · exact Or.inl ⟨same, by simp [last, ← number]⟩
      · exact Or.inr (Or.inr ⟨String.ofList own, by simp [same], by simp [last, rest]⟩)
  · intro cases
    rcases cases with ⟨same, last⟩ | ⟨same, last⟩ | ⟨more, same, last⟩
    · refine Or.inr ⟨(toString replica).toList, ?_, ?_⟩
      · rw [same]
      · simp [last]
    · refine Or.inl ⟨?_, last.symm⟩
      simp [same]
    · refine Or.inr ⟨more.toList ++ '-' :: (toString replica).toList, ?_, ?_⟩
      · simp [same]
      · simp [last]

theorem is_service_container_name_iff (name front : String) :
    isServiceContainerName name front = true ↔ ∃ replica short : String,
      name = front ++ (replica ++ "-" ++ short) ∧
        (replica.toList ≠ [] ∧ replica.toList.all Char.isDigit = true) ∧
        (short.toList ≠ [] ∧ short.toList.all Text.isAsciiHexdigit = true) := by
  have hyphen : "-".toList = ['-'] := rfl
  unfold isServiceContainerName
  constructor
  · intro accepted
    cases stripped : Text.stripFront name front with
    | none => simp [stripped] at accepted
    | some rest =>
        cases split : Text.splitOnce '-' rest with
        | none => simp [stripped, split] at accepted
        | some fields =>
            obtain ⟨replica, short⟩ := fields
            have whole := ((Text.split_once_iff '-' rest replica short).mp split).1
            simp only [stripped, Option.bind_some, split, Bool.and_eq_true, Bool.not_eq_true',
              ← Bool.not_eq_true, String.isEmpty_iff] at accepted
            obtain ⟨⟨⟨someReplica, digits⟩, someShort⟩, hex⟩ := accepted
            refine ⟨replica, short, ?_, ⟨?_, digits⟩, ⟨?_, hex⟩⟩
            · rw [Text.strip_front_some stripped]
              apply congrArg (front ++ ·)
              apply String.toList_injective
              rw [whole, String.toList_append, String.toList_append, hyphen, List.append_assoc]
              rfl
            · exact fun none => someReplica (String.toList_eq_nil_iff.mp none)
            · exact fun none => someShort (String.toList_eq_nil_iff.mp none)
  · intro fields
    obtain ⟨replica, short, named, ⟨someReplica, digits⟩, someShort, hex⟩ := fields
    have plain : '-' ∉ replica.toList := fun member =>
      digit_ne_hyphen (List.all_eq_true.mp digits _ member) rfl
    have split : Text.splitOnce '-' (replica ++ "-" ++ short) = some (replica, short) := by
      apply (Text.split_once_iff _ _ _ _).mpr
      refine ⟨?_, plain⟩
      rw [String.toList_append, String.toList_append, hyphen, List.append_assoc]
      rfl
    rw [named, Text.strip_front_append, Option.bind_some, split]
    simp only [Bool.and_eq_true, Bool.not_eq_true', ← Bool.not_eq_true, String.isEmpty_iff]
    refine ⟨⟨⟨?_, digits⟩, ?_⟩, hex⟩
    · exact fun none => someReplica (String.toList_eq_nil_iff.mpr none)
    · exact fun none => someShort (String.toList_eq_nil_iff.mpr none)

theorem own_name_iff (sibling : ContainerService) (replica : Nat) (id : Uuid) :
    isServiceContainerName (containerName app service replica id)
      (servicePrefix app sibling.name) = true ↔ service.name = sibling.name := by
  rw [is_service_container_name_iff]
  constructor
  · intro fields
    obtain ⟨number, short, named, ⟨-, digits⟩, -, hex⟩ := fields
    have plain : '-' ∉ number.toList := fun member =>
      digit_ne_hyphen (List.all_eq_true.mp digits _ member) rfl
    have plainShort : '-' ∉ short.toList := by
      intro member
      have isHex := List.all_eq_true.mp hex _ member
      revert isHex
      decide
    rcases (service_prefix_iff app service replica id sibling.name _).mp named with
      ⟨same, -⟩ | ⟨-, last⟩ | ⟨more, -, last⟩
    · exact same
    · -- eight digits hold no hyphen
      have inside : '-' ∈ (shortDeploymentId id).toList := by
        rw [← last]
        simp [String.toList_append]
      exact absurd inside (short_id_plain id)
    · have lists := congrArg String.toList last
      have fields : number.toList ++ '-' :: short.toList =
          (more.toList ++ '-' :: (toString replica).toList) ++
            '-' :: (shortDeploymentId id).toList := by
        simpa [String.toList_append] using lists
      have front := ((append_mark_inj plainShort (short_id_plain id)).mp fields).1
      have inside : '-' ∈ number.toList := by
        rw [front]
        simp
      exact absurd inside plain
  · intro same
    refine ⟨toString replica, shortDeploymentId id, ?_, ⟨repr_ne_nil replica, ?_⟩, ?_, short_id_hex id⟩
    · rw [container_name_eq, same]
    · exact List.all_eq_true.mpr (repr_digits replica)
    · intro none
      have counted := short_id_length id
      rw [none] at counted
      cases counted

theorem container_names_identify {app other : App} (bits : app.id.value < 2 ^ 128)
    (otherBits : other.id.value < 2 ^ 128) (service sibling : ContainerService)
    (replica index : Nat) (deployment again : Deployment) :
    (isServiceContainerName (containerName app service replica deployment.id)
        (servicePrefix app sibling.name) = true ↔ service.name = sibling.name) ∧
    replicaContainerName app service deployment replica =
      containerName app service replica deployment.id ∧
    (containerName app service replica deployment.id =
        containerName other sibling index again.id ↔
      app.id = other.id ∧ service.name = sibling.name ∧ replica = index ∧
        shortDeploymentId deployment.id = shortDeploymentId again.id) ∧
    (replicaContainerName app service deployment replica =
        replicaContainerName other sibling again index ↔
      app.id = other.id ∧ service.name = sibling.name ∧ replica = index ∧
        shortDeploymentId deployment.id = shortDeploymentId again.id) := by
  have fields := container_name_eq_iff bits otherBits service sibling replica index
    deployment.id again.id
  refine ⟨own_name_iff app service sibling replica deployment.id,
    replica_container_name_eq app service deployment replica, fields, ?_⟩
  rw [replica_container_name_eq, replica_container_name_eq]
  exact fields

def demoDashed : ContainerService := { demoService with id := ⟨7⟩, name := "web-0" }

theorem container_names_identify_dashed :
    demoApp.id.value < 2 ^ 128 ∧ "web" ≠ "web-0" ∧
    isServiceContainerName (containerName demoApp demoService 0 demoDeployment.id)
      (servicePrefix demoApp demoDashed.name) = false ∧
    containerName demoApp demoService 0 demoDeployment.id ≠
      containerName demoApp demoDashed 0 demoDeployment.id := by
  have bits : demoApp.id.value < 2 ^ 128 := by decide
  have different : demoService.name ≠ demoDashed.name := by decide
  have facts := container_names_identify bits bits demoService demoDashed 0 0 demoDeployment
    demoDeployment
  refine ⟨bits, by decide, ?_, ?_⟩
  · rw [← Bool.not_eq_true]
    exact fun accepted => different (facts.1.mp accepted)
  · exact fun same => different (facts.2.2.1.mp same).2.1

end Containr.Api.ContainerNames
