import Containr.Api.Asides
import Containr.Api.Identity
import Containr.Managed.Services

/-!
# What a deletion does to apps and their containers

The environment answers what a deletion depends on: it reads services and apps, saves the
app without a service, lists containers and removes them. Everything else may fail.
-/

namespace Containr.Managed

open Containr.Effect Containr.Effect.Program Containr.Api Containr.Api.Services

def carefulChoice : (op : Op) → op.Choice → World → Bool
  | .query (.service _), fault, _ | .query (.app _), fault, _
  | .query (.servicesByApp _), fault, _ => Option.isNone fault
  | .write (.saveApp app), fault, world => Option.isNone fault && (world.db.saveApp app).isSome
  | .docker .listContainers, fault, _ | .docker (.removeContainer _), fault, _ =>
      Option.isNone fault
  | _, _, _ => true

abbrev careful : Machine Effects World := systemWhere carefulChoice

def Modest : Op → Prop
  | .docker (.createContainer _ _) | .write (.saveApp _) | .write (.deleteApp _) => False
  | _ => True

def Shrinks (before after : World) : Prop :=
  ∀ container ∈ after.containers,
    ∃ old ∈ before.containers, old.name = container.name ∧ old.serial = container.serial

structure Settles (before after : World) : Prop where
  containers : Shrinks before after
  apps : after.db.apps = before.db.apps
  services : after.db.services = before.db.services

theorem shrinks_rfl (world : World) : Shrinks world world :=
  fun container member => ⟨container, member, rfl, rfl⟩

theorem Shrinks.trans {first second third : World} (earlier : Shrinks first second)
    (later : Shrinks second third) : Shrinks first third := by
  intro container member
  obtain ⟨middle, inSecond, sameName, sameSerial⟩ := later container member
  obtain ⟨old, inFirst, name, serial⟩ := earlier middle inSecond
  exact ⟨old, inFirst, name.trans sameName, serial.trans sameSerial⟩

variable {before after : World}

theorem shrinks_of_same (same : after.containers = before.containers) : Shrinks before after := by
  intro container member
  rw [same] at member
  exact ⟨container, member, rfl, rfl⟩

theorem shrinks_of_filter {keep : Container → Bool}
    (same : after.containers = before.containers.filter keep) : Shrinks before after := by
  intro container member
  rw [same] at member
  exact ⟨container, (List.mem_filter.mp member).1, rfl, rfl⟩

theorem shrinks_of_set_running {selected : Container → Bool} {value : Bool}
    (same : after.containers = setRunning selected value before.containers) :
    Shrinks before after := by
  intro container member
  rw [same] at member
  obtain ⟨old, inOld, isContainer⟩ := List.mem_map.mp member
  refine ⟨old, inOld, ?_⟩
  rw [← isContainer]
  split_ifs
  · exact ⟨rfl, rfl⟩
  · exact ⟨rfl, rfl⟩

theorem settles_rfl (world : World) : Settles world world := ⟨shrinks_rfl world, rfl, rfl⟩

theorem Settles.trans {first second third : World} (earlier : Settles first second)
    (later : Settles second third) : Settles first third where
  containers := earlier.containers.trans later.containers
  apps := later.apps.trans earlier.apps
  services := later.services.trans earlier.services

theorem modest_docker {request : DockerCall} {answer : Except String request.Reply}
    (modest : Modest (.docker request)) (possible : Possible (.docker request) before answer after)
    : Shrinks before after := by
  cases request with
  | createContainer name body => exact modest.elim
  | startContainer serial =>
      cases possible_start possible with
      | inl failed => exact shrinks_of_same (congrArg World.containers failed.1)
      | inr started => exact shrinks_of_set_running (congrArg World.containers started.2)
  | stopContainer name =>
      cases possible_stop possible with
      | inl same => exact shrinks_of_same (congrArg World.containers same)
      | inr stopped => exact shrinks_of_set_running (congrArg World.containers stopped)
  | removeContainer name =>
      cases possible_remove possible with
      | inl same => exact shrinks_of_same (congrArg World.containers same)
      | inr removed => exact shrinks_of_filter (congrArg World.containers removed)
  | inspectContainer name =>
      cases possible_docker possible with
      | inl served =>
          have same : before = after := congrArg Prod.snd served
          rw [same]
          exact shrinks_rfl after
      | inr failed => exact shrinks_of_same (congrArg World.containers failed.1)
  | listContainers =>
      cases possible_docker possible with
      | inl served =>
          have same : before = after := congrArg Prod.snd served
          rw [same]
          exact shrinks_rfl after
      | inr failed => exact shrinks_of_same (congrArg World.containers failed.1)

theorem modest_write {change : Write} {answer : Except String Unit}
    (modest : Modest (.write change)) (possible : Possible (.write change) before answer after) :
    after.db.apps = before.db.apps ∧ after.db.services = before.db.services := by
  cases possible_write possible with
  | inr failed =>
      rw [failed.1]
      exact ⟨rfl, rfl⟩
  | inl applied =>
      obtain ⟨-, db, changed, isAfter⟩ := applied
      rw [isAfter]
      cases change with
      | saveApp app => exact modest.elim
      | deleteApp id => exact modest.elim
      | saveDeployment deployment =>
          have shape := Database.save_deployment_shape changed
          exact ⟨shape.1, shape.2.1⟩
      | deleteDeployment id =>
          cases changed
          exact ⟨rfl, rfl⟩
      | saveServiceDeployment row =>
          rw [Database.save_service_deployment_shape changed]
          exact ⟨rfl, rfl⟩
      | appendDeploymentLog id line =>
          rw [Database.append_deployment_log_shape changed]
          exact ⟨rfl, rfl⟩

theorem modest_settles {op : Op} {before after : World} {answer : op.Answer} (modest : Modest op)
    (possible : Possible op before answer after) : Settles before after := by
  have untouched := possible_untouched possible
  have containers : Shrinks before after := by
    by_cases isDocker : ∃ request, op = .docker request
    · obtain ⟨request, same⟩ := isDocker
      subst same
      exact modest_docker modest possible
    · have same := untouched.containers fun request isIt => isDocker ⟨request, isIt⟩
      exact shrinks_of_same same.1
  by_cases isWrite : ∃ change, op = .write change
  · obtain ⟨change, same⟩ := isWrite
    subst same
    have rows := modest_write modest possible
    exact ⟨containers, rows.1, rows.2⟩
  · have same := untouched.db fun change isIt => isWrite ⟨change, isIt⟩
    exact ⟨containers, congrArg Database.apps same, congrArg Database.services same⟩

theorem careful_possible {op : Op} {before after : World} {answer : op.Answer}
    (can : careful.can op before answer after) : Possible op before answer after :=
  where_possible can

variable {Value : Type} {program : Sys Value}

theorem modest_ensures (modest : program.Calls Modest) (world : World) :
    program.Ensures careful.can (fun _ after => Settles world after) world :=
  Calls.relates modest
    (fun op before answer after allowed can =>
      modest_settles allowed (@careful_possible op before after answer can))
    settles_rfl (fun _ _ _ => Settles.trans) world

theorem modest_of_aside (op : Op) (aside : Op.Aside op) : Modest op := by
  cases op with
  | query wanted => trivial
  | write change => cases change <;> exact aside
  | docker request => cases request <;> exact aside
  | _ => trivial

theorem aside_ensures (aside : program.Calls Op.Aside) (world : World) :
    program.Ensures careful.can (fun _ after => Settles world after) world :=
  modest_ensures (aside.mono modest_of_aside) world

section Answers

variable {before after : World}

theorem careful_read {wanted : Query} {answer : Except String wanted.Row}
    (read : carefulChoice (.query wanted) = fun fault _ => Option.isNone fault)
    (can : careful.can (.query wanted) before answer after) :
    answer = .ok (wanted.read before.db) ∧ after = before := by
  obtain ⟨choice, admitted, result⟩ := can
  have succeeds : carefulChoice (.query wanted) choice before = true := admitted.2
  rw [read] at succeeds
  have none_ : choice = none := Option.isNone_iff_eq_none.mp succeeds
  rw [none_] at result
  exact ⟨(congrArg Prod.fst result).symm, (congrArg Prod.snd result).symm⟩

theorem careful_list {answer : Except String (List Container)}
    (can : careful.can (.docker .listContainers) before answer after) :
    answer = .ok before.containers ∧ after = before := by
  obtain ⟨choice, admitted, result⟩ := can
  have none_ : choice = none := Option.isNone_iff_eq_none.mp admitted.2
  rw [none_] at result
  exact ⟨(congrArg Prod.fst result).symm, (congrArg Prod.snd result).symm⟩

theorem careful_remove {name : String} {answer : Except String Unit}
    (can : careful.can (.docker (.removeContainer name)) before answer after) :
    after.hasContainer name = false := by
  obtain ⟨choice, admitted, result⟩ := can
  have none_ : choice = none := Option.isNone_iff_eq_none.mp admitted.2
  rw [none_] at result
  have removed : before.removeContainer name = (answer, after) := result
  cases before.remove_container_cases name with
  | inl absent =>
      obtain ⟨missing, message, same⟩ := absent
      rw [same] at removed
      cases removed
      exact missing
  | inr present =>
      rw [present.2] at removed
      cases removed
      simp [World.hasContainer]

theorem careful_save {app : App} {answer : Except String Unit}
    (can : careful.can (.write (.saveApp app)) before answer after) :
    answer = .ok () ∧ ∃ db, before.db.saveApp app = some db ∧ after = { before with db := db } := by
  obtain ⟨choice, admitted, result⟩ := can
  have succeeds : (Option.isNone choice && (before.db.saveApp app).isSome) = true := admitted.2
  rw [Bool.and_eq_true] at succeeds
  have none_ : choice = none := Option.isNone_iff_eq_none.mp succeeds.1
  obtain ⟨db, saved⟩ := Option.isSome_iff_exists.mp succeeds.2
  rw [none_] at result
  have applied : (Write.saveApp app).apply before.db = some db := saved
  have executed := (exec_write_applied applied).symm.trans result
  exact ⟨(congrArg Prod.fst executed).symm, db, saved, (congrArg Prod.snd executed).symm⟩

end Answers

/-- A replica of a service, or a run of a cron service. -/
def OfApp (id : Uuid) (name : String) : Prop :=
  Text.startsWith name ("containr-" ++ id.toString) = true ∨
    Text.startsWith name ("containr-cron-" ++ Cron.shortId id.toString ++ "-") = true

def AppGone (id : Uuid) (world : World) : Prop :=
  ∀ container ∈ world.containers, ¬OfApp id container.name

variable {id : Uuid}

theorem Shrinks.gone (shrinks : Shrinks before after) (gone : AppGone id before) :
    AppGone id after := by
  intro container member
  obtain ⟨old, inBefore, sameName, -⟩ := shrinks container member
  rw [← sameName]
  exact gone old inBefore

theorem Shrinks.absent {name : String} (shrinks : Shrinks before after)
    (absent : before.hasContainer name = false) : after.hasContainer name = false := by
  rw [World.hasContainer, List.any_eq_false] at absent ⊢
  intro container member
  obtain ⟨old, inBefore, sameName, -⟩ := shrinks container member
  rw [← sameName]
  exact absent old inBefore

theorem stop_replica_removes (name : String) (world : World) :
    (stopServiceReplica name).Ensures careful.can
      (fun _ after => Settles world after ∧ after.hasContainer name = false) world := by
  have removal : ∀ start, (removeContainer name).Ensures careful.can
      (fun _ after => after.hasContainer name = false) start := by
    intro start
    unfold removeContainer Program.Ensures
    rw [bind_eq, always_bind]
    refine (aside_ensures ((stop_container_stops name).mono aside_of_stops) start).mono ?_
    intro _ stopped _
    rw [Containr.ignore_always]
    apply op_always.mpr
    exact ⟨trivial, fun answer after can => careful_remove can⟩
  have settles := aside_ensures ((stop_service_replica_stops name).mono aside_of_stops) world
  apply settles.and
  unfold stopServiceReplica
  rw [bind_eq, always_bind]
  refine (aside_ensures ((stop_container_stops name).mono aside_of_stops) world).mono ?_
  intro _ stopped _
  exact removal stopped

/-- Whatever fails behind the removals, the containers are gone. -/
theorem delete_app_runtime_clears (server : Server) (app : App) (world : World) :
    (Services.deleteAppRuntime server app).run.Ensures careful.can
      (fun _ after => Settles world after ∧ AppGone app.id after) world := by
  unfold Services.deleteAppRuntime Program.Ensures
  rw [always_run_bind, Containr.or_internal_always]
  apply always_op trivial
  intro answer listed can
  obtain ⟨isAnswer, isWorld⟩ := careful_list can
  rw [isAnswer, isWorld]
  dsimp only
  rw [always_run_lift_bind]
  have cleared : (forAll stopServiceReplica ((List.map Container.name world.containers).filter
      fun name => Text.startsWith name ("containr-" ++ app.id.toString) ||
        Text.startsWith name ("containr-cron-" ++ Cron.shortId app.id.toString ++ "-"))).Ensures
      careful.can (fun _ after => Settles world after ∧ AppGone app.id after) world := by
    apply always_for_all (fun done state => Settles world state ∧
      ∀ name ∈ done, World.hasContainer state name = false) _ [] world
    · exact ⟨settles_rfl world, fun name impossible => by cases impossible⟩
    · intro state held
      refine ⟨held.1, fun container member ofApp => ?_⟩
      obtain ⟨old, inWorld, sameName, -⟩ := held.1.containers container member
      have named : container.name ∈ (List.map Container.name world.containers).filter
          fun name => Text.startsWith name ("containr-" ++ app.id.toString) ||
            Text.startsWith name ("containr-cron-" ++ Cron.shortId app.id.toString ++ "-") := by
        apply List.mem_filter.mpr
        refine ⟨List.mem_map.mpr ⟨old, inWorld, sameName⟩, ?_⟩
        rw [Bool.or_eq_true]
        exact ofApp
      have absent := held.2 container.name named
      rw [World.hasContainer, List.any_eq_false] at absent
      exact absent container member (decide_eq_true rfl)
    · intro before name rest state _ held
      refine (stop_replica_removes name state).mono ?_
      intro _ next removed
      refine ⟨held.1.trans removed.1, fun other member => ?_⟩
      cases List.mem_append.mp member with
      | inl earlier => exact removed.1.containers.absent (held.2 other earlier)
      | inr last =>
          rw [List.mem_singleton.mp last]
          exact removed.2
  refine cleared.mono ?_
  intro _ state held
  refine Always.mono (modest_ensures ?calls state) ?kept
  case calls =>
    apply Calls.run_bind (Containr.or_internal_calls (op_calls trivial))
    intro _
    apply calls_for_each
    intro root _
    exact Calls.bind (op_calls trivial) fun _ => calls_pure _
  intro _ final settles
  exact ⟨held.1.trans settles, settles.containers.gone held.2⟩

structure Keyed (db : Database) : Prop where
  apps : (db.apps.map (·.id)).Nodup
  services : (db.services.map (·.id)).Nodup

structure TouchesOnly (id : Uuid) (before after : World) : Prop where
  containers : Shrinks before after
  apps : ∀ row ∈ before.db.apps, row.id ≠ id → row ∈ after.db.apps
  services : ∀ row, row.appId ≠ id → (row ∈ after.db.services ↔ row ∈ before.db.services)
  ids : ∀ row ∈ after.db.services, ∃ old ∈ before.db.services, old.id = row.id
  keyed : Keyed before.db → Keyed after.db

theorem Settles.touches_only (settles : Settles before after) (id : Uuid) :
    TouchesOnly id before after where
  containers := settles.containers
  apps := fun row stored _ => by rw [settles.apps]; exact stored
  services := fun row _ => by rw [settles.services]
  ids := fun row stored => ⟨row, by rwa [settles.services] at stored, rfl⟩
  keyed := by
    intro keyed
    constructor
    · rw [settles.apps]
      exact keyed.apps
    · rw [settles.services]
      exact keyed.services

theorem TouchesOnly.trans {first second third : World} (earlier : TouchesOnly id first second)
    (later : TouchesOnly id second third) : TouchesOnly id first third where
  containers := earlier.containers.trans later.containers
  apps := fun row stored other => later.apps row (earlier.apps row stored other) other
  services := fun row other => (later.services row other).trans (earlier.services row other)
  ids := by
    intro row stored
    obtain ⟨middle, inSecond, sameId⟩ := later.ids row stored
    obtain ⟨old, inFirst, oldId⟩ := earlier.ids middle inSecond
    exact ⟨old, inFirst, oldId.trans sameId⟩
  keyed := fun keyed => later.keyed (earlier.keyed keyed)

theorem delete_row_touches_only (id : Uuid) (world : World) :
    TouchesOnly id world { world with db := world.db.deleteAppRow id } where
  containers := shrinks_of_same rfl
  apps := fun row stored other => List.mem_filter.mpr ⟨stored, decide_eq_true other⟩
  services := by
    intro row other
    constructor
    · intro kept
      exact (List.mem_filter.mp kept).1
    · intro stored
      exact List.mem_filter.mpr ⟨stored, decide_eq_true other⟩
  ids := fun row kept => ⟨row, (List.mem_filter.mp kept).1, rfl⟩
  keyed := fun keyed =>
    ⟨keyed.apps.sublist (List.filter_sublist.map _), keyed.services.sublist (List.filter_sublist.map _)⟩

def Touching (id : Uuid) (op : Op) : Prop := Modest op ∨ op = .write (.deleteApp id)

theorem touches_only_ensures (calls : program.Calls (Touching id)) (world : World) :
    program.Ensures careful.can (fun _ after => TouchesOnly id world after) world := by
  have step : ∀ op before answer after, Touching id op →
      careful.can op before answer after → TouchesOnly id before after := by
    intro op before answer after allowed can
    have possible := careful_possible can
    cases allowed with
    | inl modest => exact (modest_settles modest possible).touches_only id
    | inr isDelete =>
        subst isDelete
        cases possible_write possible with
        | inl applied =>
            obtain ⟨-, db, changed, isAfter⟩ := applied
            cases changed
            rw [isAfter]
            exact delete_row_touches_only id before
        | inr failed =>
            rw [failed.1]
            exact (settles_rfl before).touches_only id
  exact Calls.relates calls step (fun state => (settles_rfl state).touches_only id)
    (fun _ _ _ => TouchesOnly.trans) world

theorem delete_app_touches_only (id : Uuid) (world : World) :
    (deleteApp id).run.Ensures careful.can (fun _ after => TouchesOnly id world after) world := by
  apply touches_only_ensures
  have found : (Store.getApp id).run.Calls Modest := by
    apply Calls.run_bind (op_calls trivial)
    intro row
    cases row with
    | none => exact calls_run_pure _
    | some row => exact Calls.run_return (op_calls trivial)
  apply (found.mono fun _ modest => .inl modest).run_bind
  intro app
  cases app with
  | none => exact calls_run_pure _
  | some app =>
      apply ((deployments_aside app.id).mono fun op aside => .inl (modest_of_aside op aside)).run_bind
      intro deployments
      apply Calls.run_lift_bind
      · apply calls_for_all
        intro deployment _
        exact Containr.ignore_calls (op_calls (.inl trivial))
      intro _
      have row : (Store.deleteApp id).run.Calls (Touching id) := op_calls (.inr rfl)
      exact row.run_return

structure Current (app : App) (world : World) : Prop where
  stored : ∃ row ∈ world.db.apps, row.id = app.id ∧ row.ownerId = app.ownerId
  services : app.services = world.db.servicesByApp app.id

variable {app : App}

theorem Current.settled (current : Current app before) (settles : Settles before after) :
    Current app after where
  stored := by
    rw [settles.apps]
    exact current.stored
  services := by
    rw [Database.servicesByApp, settles.services]
    exact current.services

variable {world : World}

theorem Current.mem (current : Current app world) (service : ContainerService) :
    service ∈ app.services ↔ service ∈ world.db.services ∧ service.appId = app.id := by
  rw [current.services]
  exact mem_services_by_app

theorem Current.unique (current : Current app world) (keyed : Keyed world.db) :
    (app.services.map (·.id)).Nodup := by
  rw [current.services]
  have sorted : (world.db.servicesByApp app.id).Perm
      (world.db.services.filter (·.appId = app.id)) := List.perm_insertionSort _ _
  rw [(sorted.map _).nodup_iff]
  exact keyed.services.sublist (List.filter_sublist.map _)

structure Reduced (app : App) (serviceId : Uuid) (world : World) : Prop where
  stored : ∃ row ∈ world.db.apps, row.id = app.id ∧ row.ownerId = app.ownerId
  some : ∃ service ∈ world.db.services, service.appId = app.id
  others : ∀ service ∈ world.db.services, service.appId = app.id →
    service ∈ app.services ∧ service.id ≠ serviceId

variable {serviceId : Uuid}

theorem Reduced.settled (reduced : Reduced app serviceId before) (settles : Settles before after) :
    Reduced app serviceId after := by
  constructor
  · rw [settles.apps]
    exact reduced.stored
  · rw [settles.services]
    exact reduced.some
  · rw [settles.services]
    exact reduced.others

theorem other_service {services : List ContainerService} (unique : (services.map (·.id)).Nodup)
    (several : services.length ≠ 1) (member : ∃ service ∈ services, service.id = serviceId) :
    ∃ other ∈ services, other.id ≠ serviceId := by
  by_contra none_
  push Not at none_
  obtain ⟨service, inServices, isService⟩ := member
  have all : ∀ other ∈ services, other = service := by
    intro other inOther
    apply List.inj_on_of_nodup_map unique inOther inServices
    rw [none_ other inOther, isService]
  have isReplicate := List.eq_replicate_of_mem all
  have few : services.length ≤ 1 := by
    have nodup := unique.of_map
    rw [isReplicate] at nodup
    exact List.nodup_replicate.mp nodup
  have some := List.length_pos_of_mem inServices
  omega

theorem save_without {now : Time} {db : Database} (keyed : Keyed world.db)
    (current : Current app world)
    (saved : world.db.saveApp (withoutService app serviceId now) = some db)
    (member : ∃ service ∈ app.services, service.id = serviceId) (several : app.services.length ≠ 1) :
    TouchesOnly app.id world { world with db := db } ∧
      Reduced app serviceId { world with db := db } := by
  have kept : ∀ service, service ∈ (withoutService app serviceId now).services ↔
      service ∈ app.services ∧ service.id ≠ serviceId := by
    intro service
    unfold withoutService
    rw [List.mem_filter, decide_eq_true_eq]
  have written : ∀ row ∈ db.services, row ∈ (withoutService app serviceId now).services ∨
      row ∈ world.db.services ∧ row.appId ≠ app.id := by
    intro row stored
    cases Database.save_app_service saved stored with
    | inl new => exact .inl new
    | inr old => exact .inr ⟨old.1, old.2.1⟩
  have apps := Database.save_app_apps saved
  constructor
  · constructor
    · exact shrinks_of_same rfl
    · intro row stored other
      change row ∈ db.apps
      rw [apps, mem_upsert]
      exact .inr ⟨stored, other⟩
    · intro row other
      constructor
      · intro stored
        cases written row stored with
        | inl new => exact absurd ((current.mem row).mp ((kept row).mp new).1).2 other
        | inr old => exact old.1
      · intro stored
        apply Database.save_app_service_other saved keyed.services stored other
        intro inIds
        obtain ⟨service, inKept, sameId⟩ := List.mem_map.mp inIds
        obtain ⟨inStore, ofApp⟩ := (current.mem service).mp ((kept service).mp inKept).1
        have same := List.inj_on_of_nodup_map keyed.services inStore stored sameId
        rw [same] at ofApp
        exact other ofApp
    · intro row stored
      cases written row stored with
      | inl new => exact ⟨row, ((current.mem row).mp ((kept row).mp new).1).1, rfl⟩
      | inr old => exact ⟨row, old.1, rfl⟩
    · intro _
      constructor
      · change (db.apps.map (·.id)).Nodup
        rw [apps]
        exact upsert_nodup _ _ _ keyed.apps
      · exact Database.save_app_service_ids saved keyed.services
  · constructor
    · refine ⟨world.db.storedApp (withoutService app serviceId now), ?_, rfl, rfl⟩
      change _ ∈ db.apps
      rw [apps, mem_upsert]
      exact .inl rfl
    · obtain ⟨other, inApp, different⟩ :=
        other_service (current.unique keyed) several member
      obtain ⟨row, stored, -, inKept⟩ :=
        Database.save_app_services saved other ((kept other).mpr ⟨inApp, different⟩)
      exact ⟨row, stored, ((current.mem row).mp ((kept row).mp inKept).1).2⟩
    · intro row stored ofApp
      cases written row stored with
      | inl new => exact (kept row).mp new
      | inr old => exact absurd ofApp old.2

theorem delete_app_service_reduces (server : Server) {service : ContainerService}
    (keyed : Keyed world.db) (current : Current app world)
    (member : ∃ stored ∈ app.services, stored.id = service.id) (several : app.services.length ≠ 1) :
    (deleteAppService server app service).run.Ensures careful.can
      (fun _ after => TouchesOnly app.id world after ∧ Reduced app service.id after) world := by
  unfold deleteAppService Program.Ensures
  rw [if_neg several, always_run_lift_bind, Containr.ignore_always]
  refine (aside_ensures (stop_app_service_aside server app service) world).mono ?_
  intro _ stopped settles
  have currentStopped := current.settled settles
  have touched := settles.touches_only app.id
  rw [always_run_lift_bind]
  apply always_op trivial
  intro now clocked can
  have ticked := @modest_settles .utcNow _ _ _ trivial (careful_possible can)
  have currentClocked := currentStopped.settled ticked
  have touchedClocked := touched.trans (ticked.touches_only app.id)
  rw [always_run_bind, Containr.or_internal_always]
  apply always_op trivial
  intro answer after can
  obtain ⟨isAnswer, db, saved, isAfter⟩ := careful_save can
  rw [isAnswer, isAfter]
  obtain ⟨saves, reduced⟩ :=
    save_without (touchedClocked.keyed keyed) currentClocked saved member several
  refine (aside_ensures (finish_deletion_aside server _ service) _).mono ?_
  intro _ final finishes
  exact ⟨(touchedClocked.trans saves).trans (finishes.touches_only app.id), reduced.settled finishes⟩

end Containr.Managed
