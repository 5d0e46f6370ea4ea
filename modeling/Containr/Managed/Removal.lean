import Containr.Managed.Directories
import Containr.Managed.Frames

/-!
# What a deletion removes

The deletion of a managed service, and of a group with its last service, when the store
answers what they ask of managed services and the daemon removes their containers.
-/

namespace Containr.Managed

open Containr.Effect Containr.Effect.Program Containr.Api Containr.Api.Services

def carefulEstateChoice : (op : EstateEffects.Op) → estateSystem.Choice op → Estate → Bool
  | .inl op, choice, estate => carefulChoice op choice estate.world
  | .inr (.list _ _), fault, _ | .inr (.find _ _), fault, _ | .inr (.delete _ _), fault, _
  | .inr (.removeIfExists _), fault, _ | .inr (.removeContainer _), fault, _ => Option.isNone fault
  | .inr _, _, _ => true

abbrev carefulEstate : Machine EstateEffects Estate :=
  estateSystem.only fun op choice estate => carefulEstateChoice op choice estate = true

def Bare (service : ManagedService) (estate : Estate) : Prop :=
  ∀ container ∈ estate.world.containers,
    (service.kind = .database → container.name ≠ service.proxyContainerName) ∧
      service.containerId ≠ some container.serial

variable {before : Estate} {service : ManagedService} {after : Estate}

theorem Bare.shrinks (bare : Bare service before) (shrinks : Shrinks before.world after.world) :
    Bare service after := by
  intro container member
  obtain ⟨old, inBefore, sameName, sameSerial⟩ := shrinks container member
  rw [← sameName, ← sameSerial]
  exact bare old inBefore

structure Idles (before after : Estate) : Prop where
  containers : Shrinks before.world after.world
  db : after.world.db = before.world.db
  managed : after.managed = before.managed
  users : after.users = before.users

variable (server : Server) (app : App) (kind : ManagedKind) (estate : Estate)

theorem idles_rfl : Idles estate estate := ⟨shrinks_rfl _, rfl, rfl, rfl⟩

theorem Idles.trans {first second third : Estate} (earlier : Idles first second)
    (later : Idles second third) : Idles first third where
  containers := earlier.containers.trans later.containers
  db := later.db.trans earlier.db
  managed := later.managed.trans earlier.managed
  users := later.users.trans earlier.users

structure Dwindles (before after : Estate) : Prop where
  containers : Shrinks before.world after.world
  managed : after.managed.Sublist before.managed
  dropped : ∀ service ∈ before.managed, service ∈ after.managed ∨ Bare service after
  users : after.users = before.users

theorem Dwindles.trans {first second third : Estate} (earlier : Dwindles first second)
    (later : Dwindles second third) : Dwindles first third where
  containers := earlier.containers.trans later.containers
  managed := later.managed.trans earlier.managed
  dropped := by
    intro service stored
    cases earlier.dropped service stored with
    | inl kept => exact later.dropped service kept
    | inr bare => exact .inr (bare.shrinks later.containers)
  users := later.users.trans earlier.users

theorem Dwindles.on_world (shrinks : Shrinks before.world after.world)
    (managed : after.managed = before.managed) (users : after.users = before.users) :
    Dwindles before after where
  containers := shrinks
  managed := by rw [managed]
  dropped := fun service stored => .inl (by rw [managed]; exact stored)
  users := users

theorem Idles.dwindles (idles : Idles before after) : Dwindles before after :=
  Dwindles.on_world idles.containers idles.managed idles.users

theorem careful_inl {op : Op} {answer : op.Answer}
    (can : carefulEstate.can (.inl op) before answer after) :
    careful.can op before.world answer after.world ∧
      after.managed = before.managed ∧ after.users = before.users := by
  obtain ⟨choice, admitted, result⟩ := can
  have executed : ((op.exec choice before.world).1,
      { before with world := (op.exec choice before.world).2 }) = (answer, after) := result
  have isAnswer : (op.exec choice before.world).1 = answer := congrArg Prod.fst executed
  have isAfter : { before with world := (op.exec choice before.world).2 } = after :=
    congrArg Prod.snd executed
  rw [← isAfter]
  refine ⟨⟨choice, ⟨admitted.1, admitted.2⟩, ?_⟩, rfl, rfl⟩
  exact Prod.ext isAnswer rfl

theorem on_world_ensures {Error Value : Type} {program : ExceptT Error (Program Effects) Value}
    {post : Except Error Value → World → Prop} {estate : Estate}
    (ensures : program.run.Ensures careful.can post estate.world) :
    (onWorld program).run.Ensures carefulEstate.can
      (fun result after => post result after.world ∧ after.managed = estate.managed ∧
        after.users = estate.users) estate := by
  have inside : (onWorld program).run.Ensures carefulEstate.can
      (fun result after => post result after.world) estate :=
    ensures.inl Estate.world fun op before answer after can => (careful_inl can).1
  let Worldly (op : EstateEffects.Op) : Prop := ∃ world : Op, op = Sum.inl world
  have calls : (onWorld program).run.Calls Worldly :=
    on_world_calls (calls_anything program.run) fun op _ => ⟨op, rfl⟩
  have keeps : ∀ op before answer after, Worldly op →
      carefulEstate.can op before answer after →
        after.managed = before.managed ∧ after.users = before.users := by
    intro op before answer after isWorld can
    obtain ⟨world, same⟩ := isWorld
    subst same
    exact (careful_inl can).2
  let Alike (before after : Estate) : Prop :=
    after.managed = before.managed ∧ after.users = before.users
  have trans : ∀ first second third, Alike first second → Alike second third →
      Alike first third :=
    fun _ _ _ earlier later => ⟨later.1.trans earlier.1, later.2.trans earlier.2⟩
  exact inside.and (calls.relates keeps (fun _ => ⟨rfl, rfl⟩) trans estate)

section Answers

variable {before after : Estate}

theorem careful_remove_if_exists {name : String} {answer : Except String Unit}
    (can : carefulEstate.can (.inr (.removeIfExists name)) before answer after) :
    answer = .ok () ∧ after = before.keepContainers (·.name ≠ name) := by
  obtain ⟨choice, admitted, result⟩ := can
  have none_ : choice = none := Option.isNone_iff_eq_none.mp admitted.2
  rw [none_] at result
  exact ⟨(congrArg Prod.fst result).symm, (congrArg Prod.snd result).symm⟩

theorem careful_remove_container {serial : Nat} {answer : Except String Unit}
    (can : carefulEstate.can (.inr (.removeContainer serial)) before answer after) :
    ∀ container ∈ after.world.containers, container.serial ≠ serial := by
  obtain ⟨choice, admitted, result⟩ := can
  have none_ : choice = none := Option.isNone_iff_eq_none.mp admitted.2
  rw [none_] at result
  have isAfter : (before.removeContainer serial).2 = after := congrArg Prod.snd result
  rw [← isAfter]
  unfold Estate.removeContainer
  split_ifs with present
  · intro container member
    exact of_decide_eq_true (List.mem_filter.mp member).2
  · intro container member same
    apply present
    exact List.any_eq_true.mpr ⟨container, member, decide_eq_true same⟩

variable {kind : ManagedKind}

theorem careful_list_records {ownerId : Uuid} {answer : Except String (List ManagedService)}
    (can : carefulEstate.can (.inr (.list kind ownerId)) before answer after) :
    answer = .ok (before.managed.filter fun service =>
      service.kind = kind && service.ownerId = ownerId) ∧ after = before := by
  obtain ⟨choice, admitted, result⟩ := can
  have none_ : choice = none := Option.isNone_iff_eq_none.mp admitted.2
  rw [none_] at result
  exact ⟨(congrArg Prod.fst result).symm, (congrArg Prod.snd result).symm⟩

theorem careful_find_record {id : Uuid} {answer : Except String (Option ManagedService)}
    (can : carefulEstate.can (.inr (.find kind id)) before answer after) :
    answer = .ok (before.managed.find? (Estate.isRecord kind id)) ∧ after = before := by
  obtain ⟨choice, admitted, result⟩ := can
  have none_ : choice = none := Option.isNone_iff_eq_none.mp admitted.2
  rw [none_] at result
  exact ⟨(congrArg Prod.fst result).symm, (congrArg Prod.snd result).symm⟩

theorem careful_delete_record {id : Uuid} {answer : Except String Bool}
    (can : carefulEstate.can (.inr (.delete kind id)) before answer after) :
    (∃ deleted, answer = .ok deleted) ∧ after = { before with
      managed := before.managed.filter fun service => !Estate.isRecord kind id service } := by
  obtain ⟨choice, admitted, result⟩ := can
  have none_ : choice = none := Option.isNone_iff_eq_none.mp admitted.2
  rw [none_] at result
  exact ⟨⟨_, (congrArg Prod.fst result).symm⟩, (congrArg Prod.snd result).symm⟩

theorem stopping_idles {op : EstateEffects.Op} {answer : EstateEffects.Answer op}
    (stopping : Stopping op) (can : carefulEstate.can op before answer after) :
    Idles before after := by
  cases op with
  | inl op =>
      obtain ⟨inWorld, managed, users⟩ := careful_inl can
      cases op with
      | external action =>
          have untouched := possible_untouched (careful_possible inWorld)
          have containers := (untouched.containers fun _ other => by cases other).1
          have db := untouched.db fun _ other => by cases other
          exact ⟨shrinks_of_same containers, db, managed, users⟩
      | _ => exact stopping.elim
  | inr op =>
      obtain ⟨choice, admitted, result⟩ := can
      have isAfter : (op.exec choice before).2 = after := congrArg Prod.snd result
      rw [← isAfter]
      cases op with
      | removeIfExists name =>
          apply attempt_estate (Idles before) choice (idles_rfl before)
          exact ⟨shrinks_of_filter rfl, rfl, rfl, rfl⟩
      | stopContainer serial =>
          apply attempt_estate (Idles before) choice (idles_rfl before)
          cases before.world.switch_container_cases (·.serial = serial) false with
          | inl absent =>
              obtain ⟨message, same⟩ := absent
              rw [same]
              exact idles_rfl before
          | inr stopped =>
              rw [stopped]
              exact ⟨shrinks_of_set_running rfl, rfl, rfl, rfl⟩
      | removeContainer serial =>
          apply attempt_estate (Idles before) choice (idles_rfl before)
          unfold Estate.removeContainer
          split_ifs
          · exact ⟨shrinks_of_filter rfl, rfl, rfl, rfl⟩
          · exact idles_rfl before
      | networkExists name => exact idles_rfl before
      | _ => exact stopping.elim

theorem stopping_ensures {Value : Type} {program : Prog Value} (calls : program.Calls Stopping)
    (estate : Estate) : program.Ensures carefulEstate.can (fun _ after => Idles estate after)
      estate :=
  Calls.relates calls (fun op before answer after stopping can =>
    @stopping_idles before after op answer stopping can) idles_rfl
    (fun _ _ _ => Idles.trans) estate

end Answers

theorem stop_proxy_removes (service : ManagedService) (estate : Estate) :
    (stopProxyFrontend service).run.Ensures carefulEstate.can
      (fun result after => result = .ok () ∧ Idles estate after ∧
        ∀ container ∈ after.world.containers, service.kind = .database →
          container.name ≠ service.proxyContainerName) estate := by
  unfold stopProxyFrontend Program.Ensures
  cases isKind : service.kind with
  | queue =>
      apply always_run_pure.mpr
      exact ⟨rfl, idles_rfl estate, fun container _ impossible => by cases impossible⟩
  | database =>
      apply managed_always.mpr
      refine ⟨trivial, fun answer after can => ?_⟩
      have idles := @stopping_idles _ _ (.inr (.removeIfExists _)) answer trivial can
      obtain ⟨isAnswer, isAfter⟩ := careful_remove_if_exists can
      refine ⟨isAnswer, idles, fun container member _ => ?_⟩
      rw [isAfter] at member
      exact of_decide_eq_true (List.mem_filter.mp member).2

theorem stop_own_removes (service : ManagedService) (estate : Estate) :
    (stopOwnContainer service).Ensures carefulEstate.can
      (fun _ after => Idles estate after ∧
        ∀ container ∈ after.world.containers, service.containerId ≠ some container.serial)
      estate := by
  unfold stopOwnContainer Program.Ensures
  cases isSerial : service.containerId with
  | none =>
      apply always_pure.mpr
      exact ⟨idles_rfl estate, fun container _ impossible => by cases impossible⟩
  | some serial =>
      dsimp only
      rw [always_bind]
      apply managed_always.mpr
      refine ⟨trivial, fun answer stopped can => ?_⟩
      have stops := @stopping_idles _ _ (.inr (.stopContainer serial)) answer trivial can
      rw [always_bind]
      apply managed_always.mpr
      refine ⟨trivial, fun answer after can => ?_⟩
      have removes := @stopping_idles _ _ (.inr (.removeContainer serial)) answer trivial can
      apply always_pure.mpr
      refine ⟨stops.trans removes, fun container member same => ?_⟩
      exact careful_remove_container can container member (Option.some.inj same).symm

theorem stop_managed_bares (service : ManagedService) (estate : Estate) :
    (stopManaged service).run.Ensures carefulEstate.can
      (fun _ after => Idles estate after ∧ Bare service after) estate := by
  unfold stopManaged Program.Ensures
  rw [always_run_bind]
  refine (stop_proxy_removes service estate).mono ?_
  intro result proxyless stopped
  rw [stopped.1]
  dsimp only
  rw [always_run_lift_bind]
  refine (stop_own_removes service proxyless).mono ?_
  intro _ state removed
  have bare : Bare service state := by
    intro container member
    obtain ⟨old, inProxyless, sameName, -⟩ := removed.1.containers container member
    constructor
    · rw [← sameName]
      exact stopped.2.2 old inProxyless
    · exact removed.2 container member
  refine Always.mono (stopping_ensures ?calls state) ?kept
  case calls =>
    split_ifs
    · exact remove_network_calls service.networkName
    · exact calls_run_pure ()
  intro _ after idles
  exact ⟨(stopped.2.1.trans removed.1).trans idles, bare.shrinks idles.containers⟩

structure Deletes (service : ManagedService) (before after : Estate) : Prop where
  containers : Shrinks before.world after.world
  db : after.world.db = before.world.db
  managed : after.managed = before.managed.filter fun other =>
    !Estate.isRecord service.kind service.id other
  users : after.users = before.users
  bare : Bare service after

theorem delete_under_deletes (dataDir : String) (service : ManagedService) (estate : Estate) :
    (deleteUnder dataDir service).run.Ensures carefulEstate.can
      (fun result after => result = .ok () ∧ Deletes service estate after) estate := by
  unfold deleteUnder Program.Ensures
  rw [always_run_lift_bind, ignore_always]
  refine (stop_managed_bares service estate).mono ?_
  intro _ stopped stops
  rw [always_run_lift_bind]
  have removes : (removeData dataDir service).Ensures carefulEstate.can
      (fun _ after => after = stopped) stopped := by
    unfold removeData Program.Ensures
    split_ifs
    · rw [always_bind]
      apply managed_always.mpr
      refine ⟨trivial, fun answer after can => ?_⟩
      obtain ⟨choice, -, result⟩ := can
      apply always_pure.mpr
      exact (congrArg Prod.snd result).symm
    · exact always_pure.mpr rfl
  refine removes.mono ?_
  intro _ state same
  rw [same, always_run_bind, or_internal_always]
  apply managed_always.mpr
  refine ⟨trivial, fun answer after can => ?_⟩
  obtain ⟨deleted, isAfter⟩ := careful_delete_record can
  obtain ⟨found, isAnswer⟩ := deleted
  rw [isAnswer, isAfter]
  apply always_run_pure.mpr
  refine ⟨rfl, stops.1.containers, stops.1.db, ?_, stops.1.users, stops.2⟩
  dsimp only
  rw [stops.1.managed]

/-- Ids tell the services apart. -/
theorem Deletes.dwindles (deletes : Deletes service before after)
    (unique : ∀ other ∈ before.managed, other.id = service.id → other = service) :
    Dwindles before after where
  containers := deletes.containers
  managed := by
    rw [deletes.managed]
    exact List.filter_sublist
  dropped := by
    intro other inBefore
    by_cases isRecord : Estate.isRecord service.kind service.id other = true
    · have sameId : other.id = service.id := by
        have both : (decide (other.kind = service.kind) && decide (other.id = service.id)) = true :=
          isRecord
        rw [Bool.and_eq_true] at both
        exact of_decide_eq_true both.2
      rw [unique other inBefore sameId]
      exact .inr deletes.bare
    · left
      rw [deletes.managed]
      exact List.mem_filter.mpr ⟨inBefore, by simpa using isRecord⟩
  users := deletes.users

theorem Deletes.removed (deletes : Deletes service before after) : service ∉ after.managed := by
  rw [deletes.managed]
  intro member
  have other := (List.mem_filter.mp member).2
  simp [Estate.isRecord] at other

def Ungrouped (app : App) (kind : ManagedKind) (estate : Estate) : Prop :=
  ∀ service ∈ estate.managed, service.kind = kind → service.ownerId = app.ownerId →
    service.groupId ≠ some app.id

theorem Dwindles.ungrouped {app : App} {kind : ManagedKind} (dwindles : Dwindles before after)
    (ungrouped : Ungrouped app kind before) : Ungrouped app kind after :=
  fun service member => ungrouped service (dwindles.managed.subset member)

theorem careful_grouped_services : (groupedServices app kind).run.Ensures carefulEstate.can
      (fun result after => after = estate ∧ ∃ grouped, result = .ok grouped ∧
        ∀ service, service ∈ grouped ↔ service ∈ estate.managed ∧ service.kind = kind ∧
          service.ownerId = app.ownerId ∧ service.groupId = some app.id) estate := by
  unfold groupedServices Program.Ensures
  rw [always_run_bind, or_internal_always]
  apply managed_always.mpr
  refine ⟨trivial, fun answer after can => ?_⟩
  obtain ⟨isAnswer, isAfter⟩ := careful_list_records can
  rw [isAnswer, isAfter]
  dsimp only
  rw [always_run_pure]
  refine ⟨rfl, _, rfl, fun service => ?_⟩
  rw [List.mem_filter, List.mem_filter]
  simp [and_assoc]

theorem delete_grouped_dwindles (unique : (estate.managed.map (·.id)).Nodup) :
    (deleteGrouped server app kind).run.Ensures carefulEstate.can
      (fun result after => result = .ok () ∧ Dwindles estate after ∧
        after.world.db = estate.world.db ∧ Ungrouped app kind after) estate := by
  unfold deleteGrouped Program.Ensures
  rw [always_run_bind]
  refine (careful_grouped_services app kind estate).mono ?_
  intro result listed lists
  obtain ⟨same, grouped, isGrouped, members⟩ := lists
  rw [isGrouped, same]
  dsimp only
  rw [always_run_mk]
  apply always_for_each (fun done (state : Estate) => Dwindles estate state ∧
    state.world.db = estate.world.db ∧ ∀ service ∈ done, service ∉ state.managed)
    grouped [] estate
  · exact ⟨(idles_rfl estate).dwindles, rfl, fun service impossible => by cases impossible⟩
  · intro state held
    refine ⟨rfl, held.1, held.2.1, fun service stored isKind owned inGroup => ?_⟩
    have member := (members service).mpr ⟨held.1.managed.subset stored, isKind, owned, inGroup⟩
    exact held.2.2 service member stored
  · intro before item rest state split held
    have inGrouped : item ∈ grouped := by simp [split]
    have inEstate := ((members item).mp inGrouped).1
    refine (delete_under_deletes server.dataDir item state).mono ?_
    intro outcome next deleted
    obtain ⟨isOutcome, deletes⟩ := deleted
    have dwindles : Dwindles state next := by
      apply deletes.dwindles
      intro other inState sameId
      exact List.inj_on_of_nodup_map unique (held.1.managed.subset inState) inEstate sameId
    rw [isOutcome]
    refine ⟨held.1.trans dwindles, deletes.db.trans held.2.1, fun service member stored => ?_⟩
    cases List.mem_append.mp member with
    | inl earlier => exact held.2.2 service earlier (dwindles.managed.subset stored)
    | inr last =>
        rw [List.mem_singleton.mp last] at stored
        exact deletes.removed stored

structure Clears (app : App) (before after : Estate) : Prop where
  dwindles : Dwindles before after
  world : Settles before.world after.world
  gone : AppGone app.id after.world
  ungrouped : ∀ kind, Ungrouped app kind after

theorem delete_group_clears (unique : (estate.managed.map (·.id)).Nodup) :
    (deleteGroupRuntime server app).run.Ensures carefulEstate.can
      (fun _ after => Clears app estate after) estate := by
  unfold deleteGroupRuntime Program.Ensures
  rw [always_run_bind]
  refine (delete_grouped_dwindles server app .database estate unique).mono ?_
  intro result first databases
  obtain ⟨isOk, less, db, noDatabase⟩ := databases
  rw [isOk]
  dsimp only
  rw [always_run_bind]
  have uniqueFirst : (first.managed.map (·.id)).Nodup := unique.sublist (less.managed.map _)
  refine (delete_grouped_dwindles server app .queue first uniqueFirst).mono ?_
  intro result second queues
  obtain ⟨isOk, lesser, dbSecond, noQueue⟩ := queues
  rw [isOk]
  dsimp only
  refine (on_world_ensures (delete_app_runtime_clears server app second.world)).mono ?_
  intro result after cleared
  obtain ⟨⟨settles, gone⟩, managed, users⟩ := cleared
  have last : Dwindles second after := Dwindles.on_world settles.containers managed users
  have whole := (less.trans lesser).trans last
  constructor
  · exact whole
  · refine ⟨whole.containers, ?_, ?_⟩
    · rw [settles.apps, dbSecond, db]
    · rw [settles.services, dbSecond, db]
  · exact gone
  · intro kind
    cases kind with
    | database => exact last.ungrouped (lesser.ungrouped noDatabase)
    | queue => exact last.ungrouped noQueue

theorem detach_nothing (ungrouped : Ungrouped app kind estate) :
    (detachGrouped app kind).run.Ensures carefulEstate.can
      (fun _ after => after = estate) estate := by
  unfold detachGrouped Program.Ensures
  rw [always_run_bind]
  refine (careful_grouped_services app kind estate).mono ?_
  intro result listed lists
  obtain ⟨same, grouped, isGrouped, members⟩ := lists
  have empty : grouped = [] := by
    rw [List.eq_nil_iff_forall_not_mem]
    intro service member
    obtain ⟨stored, isKind, owned, inGroup⟩ := (members service).mp member
    exact ungrouped service stored isKind owned inGroup
  rw [isGrouped, same, empty]
  exact always_pure.mpr rfl

structure Loses (app : App) (serviceId : Uuid) (before after : Estate) : Prop where
  dwindles : Dwindles before after
  world : TouchesOnly app.id before.world after.world
  app : AppGone app.id after.world ∨ Reduced app serviceId after.world

theorem delete_group_service_loses {app : App} {service : ContainerService} {estate : Estate}
    (keyed : Keyed estate.world.db) (current : Current app estate.world)
    (unique : (estate.managed.map (·.id)).Nodup)
    (member : ∃ stored ∈ app.services, stored.id = service.id) :
    (deleteGroupService server app service).run.Ensures carefulEstate.can
      (fun _ after => Loses app service.id estate after) estate := by
  unfold deleteGroupService Program.Ensures
  split_ifs with last
  · rw [always_run_lift_bind, ignore_always]
    refine (on_world_ensures (aside_ensures (stop_app_service_aside server app service)
      estate.world)).mono ?_
    intro _ stopped stops
    obtain ⟨settles, managed, users⟩ := stops
    rw [always_run_bind]
    have uniqueStopped : (stopped.managed.map (·.id)).Nodup := by rw [managed]; exact unique
    refine (delete_group_clears server app stopped uniqueStopped).mono ?_
    intro result cleared clears
    have dwindles := (Dwindles.on_world settles.containers managed users).trans clears.dwindles
    have touches := (settles.trans clears.world).touches_only app.id
    cases result with
    | error error => exact ⟨dwindles, touches, .inl clears.gone⟩
    | ok _ =>
        dsimp only
        rw [always_run_bind, or_internal_always]
        refine (on_world_ensures (delete_app_touches_only app.id cleared.world)).mono ?_
        intro result deleted deletes
        obtain ⟨touchesApp, managedDeleted, usersDeleted⟩ := deletes
        have less := dwindles.trans
          (Dwindles.on_world touchesApp.containers managedDeleted usersDeleted)
        have loses : Loses app service.id estate deleted :=
          ⟨less, touches.trans touchesApp, .inl (touchesApp.containers.gone clears.gone)⟩
        cases result with
        | error error => exact loses
        | ok _ =>
            have ungrouped : ∀ kind, Ungrouped app kind deleted := by
              intro kind other stored
              rw [managedDeleted] at stored
              exact clears.ungrouped kind other stored
            dsimp only
            rw [always_run_bind]
            refine (detach_nothing app .database deleted (ungrouped .database)).mono ?_
            intro result state same
            rw [same]
            cases result with
            | error error => exact loses
            | ok _ =>
                dsimp only
                rw [always_run_bind]
                refine (detach_nothing app .queue deleted (ungrouped .queue)).mono ?_
                intro result state same
                rw [same]
                cases result with
                | error error => exact loses
                | ok _ =>
                    have refresh : (liftM (refreshProxyRoutes server app.id) :
                        Handler Unit).run.Calls Op.Aside :=
                      Calls.run_lift (refresh_proxy_routes_reading server app.id)
                    refine (on_world_ensures (aside_ensures refresh deleted.world)).mono ?_
                    intro _ final refreshed
                    obtain ⟨settles, managed, users⟩ := refreshed
                    constructor
                    · exact loses.dwindles.trans
                        (Dwindles.on_world settles.containers managed users)
                    · exact loses.world.trans (settles.touches_only app.id)
                    · exact .inl (settles.containers.gone
                        (touchesApp.containers.gone clears.gone))
  · refine (on_world_ensures
      (delete_app_service_reduces server keyed current member last)).mono ?_
    intro _ after reduces
    obtain ⟨⟨touches, reduced⟩, managed, users⟩ := reduces
    exact ⟨Dwindles.on_world touches.containers managed users, touches, .inr reduced⟩

end Containr.Managed
