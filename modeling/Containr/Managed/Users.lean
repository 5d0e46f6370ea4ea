import Containr.Api.Attribution
import Containr.Managed.Removal

/-!
# Deleting a user

`delete_user` deletes one service of the user after the other and then the row of the user,
and the row takes every record along. What a deletion of a service leaves behind it only
logs. Nothing is left where the daemon removes what it is asked to and the store answers.
-/

namespace Containr.Managed

open Containr.Effect Containr.Effect.Program Containr.Api Containr.Api.Services

def ManagedService.resource (service : ManagedService) : Resource :=
  match service.kind with
  | .database => .database service.id
  | .queue => .queue service.id

def ManagedService.containerName (service : ManagedService) : String :=
  match service.kind with
  | .database => databaseContainerName service.id
  | .queue => queueContainerName service.id

def HasContainer (resource : Resource) (world : World) : Prop :=
  ∃ container ∈ world.containers, Produced resource container.name

theorem of_app_of_produced {id : Uuid} {name : String} (produced : Produced (.app id) name) :
    OfApp id name := by
  cases produced with
  | inl worker =>
      obtain ⟨rest, isName⟩ := worker_name_eq worker
      left
      rw [isName, ← String.append_assoc]
      exact Text.starts_with_iff.mpr ⟨rest, rfl⟩
  | inr cron =>
      obtain ⟨rest, isName⟩ := cron_name_eq cron
      right
      rw [isName]
      exact Text.starts_with_iff.mpr ⟨rest, rfl⟩

theorem AppGone.none {id : Uuid} {world : World} (gone : AppGone id world) :
    ¬HasContainer (.app id) world := by
  intro left
  obtain ⟨container, member, produced⟩ := left
  exact gone container member (of_app_of_produced produced)

theorem ManagedService.produced_cases {service : ManagedService} {name : String}
    (produced : Produced service.resource name) :
    name = service.containerName ∨
      service.kind = .database ∧ name = service.proxyContainerName := by
  unfold ManagedService.resource at produced
  unfold ManagedService.containerName
  cases isKind : service.kind with
  | database =>
      rw [isKind] at produced
      exact produced.imp (fun own => own) fun proxy => ⟨rfl, proxy⟩
  | queue =>
      rw [isKind] at produced
      exact .inl produced

def OwnsApp (estate : Estate) (owner : Uuid) (app : App) : Prop :=
  app ∈ estate.world.db.apps ∧ app.ownerId = owner ∧
    ∃ service ∈ estate.world.db.services, service.appId = app.id

def OwnsManaged (estate : Estate) (owner : Uuid) (service : ManagedService) : Prop :=
  service ∈ estate.managed ∧ service.ownerId = owner

/-- Success leaves no container of the user's; a failure leaves the user, and the records of
whatever has a container left. -/
structure LeavesNothing (start : Estate) (owner : Uuid) (result : Except ApiError Unit)
    (after : Estate) : Prop where
  apps : result = .ok () → ∀ app, OwnsApp start owner app → ¬HasContainer (.app app.id) after.world
  managed : result = .ok () → ∀ service, OwnsManaged start owner service →
    ¬HasContainer service.resource after.world
  user : result ≠ .ok () → owner ∈ start.users → owner ∈ after.users
  appRecords : result ≠ .ok () → ∀ app, OwnsApp start owner app →
    HasContainer (.app app.id) after.world → OwnsApp after owner app ∧
      ∀ service ∈ start.world.db.services, service.appId = app.id →
        service ∈ after.world.db.services
  managedRecords : result ≠ .ok () → ∀ service, OwnsManaged start owner service →
    HasContainer service.resource after.world → service ∈ after.managed

/-- Ids are used once. -/
structure WellKept (estate : Estate) : Prop where
  keyed : Keyed estate.world.db
  managed : (estate.managed.map (·.id)).Nodup
  apart : ∀ row ∈ estate.world.db.services, ∀ service ∈ estate.managed, row.id ≠ service.id

def Recorded (estate : Estate) : Prop :=
  ∀ service ∈ estate.managed, ∀ container ∈ estate.world.containers,
    container.name = service.containerName → service.containerId = some container.serial

theorem get_service_reads (id : Uuid) (world : World) :
    (Containr.orInternal (Store.getService id)).run.Ensures careful.can
      (fun result after => result = .ok (world.db.serviceRow id) ∧ after = world) world := by
  unfold Program.Ensures
  rw [Containr.or_internal_always]
  apply always_op trivial
  intro answer after can
  obtain ⟨isAnswer, isAfter⟩ := careful_read rfl can
  rw [isAnswer, isAfter]
  exact ⟨rfl, rfl⟩

theorem get_app_reads (id : Uuid) (world : World) :
    (Containr.orInternal (Store.getApp id)).run.Ensures careful.can
      (fun result after => result = .ok (world.db.getApp id) ∧ after = world) world := by
  unfold Program.Ensures
  rw [Containr.or_internal_always]
  unfold Store.getApp
  rw [always_run_bind]
  apply always_op trivial
  intro answer after can
  obtain ⟨isAnswer, isAfter⟩ := careful_read rfl can
  rw [isAnswer, isAfter]
  have read : Query.read world.db (.app id) = world.db.appRow id := rfl
  rw [read]
  unfold Database.getApp
  cases found : world.db.appRow id with
  | none =>
      dsimp only
      exact always_run_pure.mpr ⟨rfl, rfl⟩
  | some row =>
      have isId : row.id = id := (lookup_eq_some_mem found).2
      dsimp only
      rw [always_run_bind]
      apply always_op trivial
      intro answer after can
      obtain ⟨isAnswer, isAfter⟩ := careful_read rfl can
      rw [isAnswer, isAfter]
      apply always_run_pure.mpr
      refine ⟨?_, rfl⟩
      have rows : Query.read world.db (.servicesByApp row.id) = world.db.servicesByApp id :=
        congrArg world.db.servicesByApp isId
      rw [rows]
      rfl

/-- What the answer says about the estate. -/
def Resolves (estate : Estate) (owner serviceId : Uuid) :
    Except ApiError OwnedServiceRecord → Prop
  | .ok (.app app service) => Current app estate.world ∧ app.ownerId = owner ∧
      service.id = serviceId ∧ ∃ stored ∈ app.services, stored.id = serviceId
  | .ok (.managed service) => service ∈ estate.managed ∧ service.id = serviceId ∧
      ∀ row ∈ estate.world.db.services, row.id ≠ serviceId
  | .error _ => (∀ row ∈ estate.world.db.services, row.id = serviceId →
      ∀ app ∈ estate.world.db.apps, app.id = row.appId → app.ownerId ≠ owner) ∧
    ∀ service ∈ estate.managed, service.id = serviceId → service.ownerId ≠ owner

theorem estate_same {before after : Estate} (world : after.world = before.world)
    (managed : after.managed = before.managed) (users : after.users = before.users) :
    after = before := by
  cases after
  cases before
  cases world
  cases managed
  cases users
  rfl

variable {estate : Estate} {owner : Uuid}

theorem owned_managed_resolves (kept : WellKept estate) {serviceId : Uuid}
    (unserved : ∀ row ∈ estate.world.db.services, row.id ≠ serviceId) {service : ManagedService}
    (stored : service ∈ estate.managed) (isId : service.id = serviceId) :
    (ownedManaged owner service).run.Ensures carefulEstate.can
      (fun result after => after = estate ∧ Resolves estate owner serviceId result) estate := by
  unfold ownedManaged Program.Ensures
  split_ifs with owned
  · apply always_run_pure.mpr
    exact ⟨rfl, stored, isId, unserved⟩
  · apply always_run_throw.mpr
    refine ⟨rfl, fun row inStore same => absurd same (unserved row inStore), ?_⟩
    intro other inEstate sameId
    rw [List.inj_on_of_nodup_map kept.managed inEstate stored (sameId.trans isId.symm)]
    exact owned

theorem find_record_cases {estate : Estate} {kind : ManagedKind} {id : Uuid} :
    (∃ service, estate.managed.find? (Estate.isRecord kind id) = some service ∧
        service ∈ estate.managed ∧ service.id = id) ∨
      estate.managed.find? (Estate.isRecord kind id) = none ∧
        ∀ service ∈ estate.managed, service.id = id → service.kind ≠ kind := by
  cases found : estate.managed.find? (Estate.isRecord kind id) with
  | some service =>
      left
      have isRecord := List.find?_some found
      unfold Estate.isRecord at isRecord
      rw [Bool.and_eq_true] at isRecord
      exact ⟨service, rfl, List.mem_of_find?_eq_some found, of_decide_eq_true isRecord.2⟩
  | none =>
      right
      refine ⟨rfl, fun service stored isId isKind => ?_⟩
      have other := List.find?_eq_none.mp found service stored
      simp [Estate.isRecord, isId, isKind] at other

theorem resolve_resolves (kept : WellKept estate) (owner serviceId : Uuid) :
    (resolveOwnedServiceRecord owner serviceId).run.Ensures carefulEstate.can
      (fun result after => after = estate ∧ Resolves estate owner serviceId result) estate := by
  unfold resolveOwnedServiceRecord Program.Ensures
  rw [always_run_bind]
  refine (on_world_ensures (get_service_reads serviceId estate.world)).mono ?_
  intro result state read
  obtain ⟨⟨isResult, sameWorld⟩, managed, users⟩ := read
  rw [isResult, estate_same sameWorld managed users]
  cases found : estate.world.db.serviceRow serviceId with
  | some service =>
      obtain ⟨stored, isId⟩ := lookup_eq_some_mem found
      have only : ∀ row ∈ estate.world.db.services, row.id = serviceId → row = service :=
        fun row inStore same =>
          List.inj_on_of_nodup_map kept.keyed.services inStore stored (same.trans isId.symm)
      have unmanaged : ∀ other ∈ estate.managed, other.id = serviceId → other.ownerId ≠ owner :=
        fun other inEstate same => absurd (isId.trans same.symm)
          (kept.apart service stored other inEstate)
      dsimp only
      rw [always_run_bind]
      refine (on_world_ensures (get_app_reads service.appId estate.world)).mono ?_
      intro result state read
      obtain ⟨⟨isResult, sameWorld⟩, managed, users⟩ := read
      rw [isResult, estate_same sameWorld managed users]
      unfold Database.getApp
      cases row : estate.world.db.appRow service.appId with
      | none =>
          have absent : ∀ app ∈ estate.world.db.apps, app.id ≠ service.appId := by
            intro app inStore same
            exact List.find?_eq_none.mp row app inStore (decide_eq_true same)
          dsimp only [Option.map_none]
          apply always_run_throw.mpr
          refine ⟨rfl, ?_, unmanaged⟩
          intro other inStore same app isApp sameApp
          rw [only other inStore same] at sameApp
          exact absurd sameApp (absent app isApp)
      | some app =>
          obtain ⟨storedApp, isAppId⟩ := lookup_eq_some_mem row
          have current : Current
              { app with services := estate.world.db.servicesByApp service.appId }
              estate.world := by
            constructor
            · exact ⟨app, storedApp, rfl, rfl⟩
            · rw [isAppId]
          have listed : service ∈ estate.world.db.servicesByApp service.appId :=
            mem_services_by_app.mpr ⟨stored, rfl⟩
          dsimp only [Option.map_some]
          split_ifs with owned
          · apply always_run_pure.mpr
            refine ⟨rfl, current, owned, ?_, service, listed, isId⟩
            cases looked : lookup (·.id) serviceId
                (estate.world.db.servicesByApp service.appId) with
            | none => exact isId
            | some other => exact (lookup_eq_some_mem looked).2
          · apply always_run_throw.mpr
            refine ⟨rfl, ?_, unmanaged⟩
            intro other inStore same candidate inApps sameApp
            rw [only other inStore same, ← isAppId] at sameApp
            rw [List.inj_on_of_nodup_map kept.keyed.apps inApps storedApp sameApp]
            exact owned
  | none =>
      have unserved : ∀ row ∈ estate.world.db.services, row.id ≠ serviceId := by
        intro row inStore same
        exact List.find?_eq_none.mp found row inStore (decide_eq_true same)
      dsimp only
      rw [always_run_bind, or_internal_always]
      apply managed_always.mpr
      refine ⟨trivial, fun answer after can => ?_⟩
      obtain ⟨isAnswer, isAfter⟩ := careful_find_record can
      rw [isAnswer, isAfter]
      cases @find_record_cases estate .database serviceId with
      | inl database =>
          obtain ⟨service, found, stored, isId⟩ := database
          rw [found]
          exact owned_managed_resolves kept unserved stored isId
      | inr noDatabase =>
          rw [noDatabase.1]
          dsimp only
          rw [always_run_bind, or_internal_always]
          apply managed_always.mpr
          refine ⟨trivial, fun answer after can => ?_⟩
          obtain ⟨isAnswer, isAfter⟩ := careful_find_record can
          rw [isAnswer, isAfter]
          cases @find_record_cases estate .queue serviceId with
          | inl queue =>
              obtain ⟨service, found, stored, isId⟩ := queue
              rw [found]
              exact owned_managed_resolves kept unserved stored isId
          | inr noQueue =>
              rw [noQueue.1]
              apply always_run_throw.mpr
              refine ⟨rfl, fun row inStore same => absurd same (unserved row inStore), ?_⟩
              intro service stored isId
              cases isKind : service.kind with
              | database => exact absurd isKind (noDatabase.2 service stored isId)
              | queue => exact absurd isKind (noQueue.2 service stored isId)

structure Waiting (owner appId : Uuid) (rest : List Uuid) (estate : Estate) : Prop where
  stored : ∃ row ∈ estate.world.db.apps, row.id = appId ∧ row.ownerId = owner
  some : ∃ row ∈ estate.world.db.services, row.appId = appId
  listed : ∀ row ∈ estate.world.db.services, row.appId = appId → row.id ∈ rest

structure Remaining (start : Estate) (owner : Uuid) (rest : List Uuid) (estate : Estate) :
    Prop where
  kept : WellKept estate
  containers : Shrinks start.world estate.world
  users : estate.users = start.users
  apps : ∀ app, OwnsApp start owner app →
    AppGone app.id estate.world ∨ Waiting owner app.id rest estate
  managed : ∀ service, OwnsManaged start owner service →
    Bare service estate ∨ service ∈ estate.managed ∧ service.id ∈ rest

theorem WellKept.dwindles {before after : Estate} (kept : WellKept before)
    (dwindles : Dwindles before after) (keyed : Keyed after.world.db)
    (ids : ∀ row ∈ after.world.db.services, ∃ old ∈ before.world.db.services, old.id = row.id) :
    WellKept after where
  keyed := keyed
  managed := kept.managed.sublist (dwindles.managed.map _)
  apart := by
    intro row inAfter service stored
    obtain ⟨old, inBefore, sameId⟩ := ids row inAfter
    rw [← sameId]
    exact kept.apart old inBefore service (dwindles.managed.subset stored)

section Step

variable {start estate after : Estate} {owner serviceId : Uuid} {rest : List Uuid}

/-- The service that was resolved belongs to an app, and the app lost it. -/
theorem Remaining.lost {app : App} (remaining : Remaining start owner (serviceId :: rest) estate)
    (current : Current app estate.world) (owned : app.ownerId = owner)
    (member : ∃ stored ∈ app.services, stored.id = serviceId)
    (loses : Loses app serviceId estate after) : Remaining start owner rest after := by
  have kept := remaining.kept
  obtain ⟨stored, inApp, isId⟩ := member
  obtain ⟨inStore, ofApp⟩ := (current.mem stored).mp inApp
  have touches := loses.world
  constructor
  · exact kept.dwindles loses.dwindles (touches.keyed kept.keyed) touches.ids
  · exact remaining.containers.trans touches.containers
  · exact loses.dwindles.users.trans remaining.users
  · intro other owns
    cases remaining.apps other owns with
    | inl gone => exact .inl (touches.containers.gone gone)
    | inr waiting =>
        by_cases isApp : other.id = app.id
        · cases loses.app with
          | inl gone =>
              rw [isApp]
              exact .inl gone
          | inr reduced =>
              right
              rw [isApp] at waiting ⊢
              constructor
              · obtain ⟨row, inApps, sameId, sameOwner⟩ := reduced.stored
                exact ⟨row, inApps, sameId, sameOwner.trans owned⟩
              · exact reduced.some
              · intro row inAfter rowApp
                obtain ⟨inServices, different⟩ := reduced.others row inAfter rowApp
                have wasListed := waiting.listed row ((current.mem row).mp inServices).1 rowApp
                exact (List.mem_cons.mp wasListed).resolve_left different
        · right
          constructor
          · obtain ⟨row, inApps, sameId, sameOwner⟩ := waiting.stored
            have other : row.id ≠ app.id := by
              rw [sameId]
              exact isApp
            exact ⟨row, touches.apps row inApps other, sameId, sameOwner⟩
          · obtain ⟨row, inServices, rowApp⟩ := waiting.some
            have other : row.appId ≠ app.id := by
              rw [rowApp]
              exact isApp
            exact ⟨row, (touches.services row other).mpr inServices, rowApp⟩
          · intro row inAfter rowApp
            have other : row.appId ≠ app.id := by
              rw [rowApp]
              exact isApp
            have inBefore := (touches.services row other).mp inAfter
            have wasListed := waiting.listed row inBefore rowApp
            apply (List.mem_cons.mp wasListed).resolve_left
            intro isThis
            have same := List.inj_on_of_nodup_map kept.keyed.services inBefore inStore
              (isThis.trans isId.symm)
            rw [same] at other
            exact other ofApp
  · intro service owns
    cases remaining.managed service owns with
    | inl bare => exact .inl (bare.shrinks touches.containers)
    | inr waiting =>
        have different : service.id ≠ serviceId := by
          intro same
          exact kept.apart stored inStore service waiting.1 (isId.trans same.symm)
        have wasListed := (List.mem_cons.mp waiting.2).resolve_left different
        cases loses.dwindles.dropped service waiting.1 with
        | inl still => exact .inr ⟨still, wasListed⟩
        | inr bare => exact .inl bare

theorem Remaining.deleted {service : ManagedService}
    (remaining : Remaining start owner (serviceId :: rest) estate)
    (stored : service ∈ estate.managed) (isId : service.id = serviceId)
    (unserved : ∀ row ∈ estate.world.db.services, row.id ≠ serviceId)
    (deletes : Deletes service estate after) : Remaining start owner rest after := by
  have kept := remaining.kept
  have dwindles : Dwindles estate after := by
    apply deletes.dwindles
    intro other inEstate sameId
    exact List.inj_on_of_nodup_map kept.managed inEstate stored sameId
  constructor
  · apply kept.dwindles dwindles
    · rw [deletes.db]
      exact kept.keyed
    · intro row inAfter
      rw [deletes.db] at inAfter
      exact ⟨row, inAfter, rfl⟩
  · exact remaining.containers.trans deletes.containers
  · exact deletes.users.trans remaining.users
  · intro app owns
    cases remaining.apps app owns with
    | inl gone => exact .inl (deletes.containers.gone gone)
    | inr waiting =>
        right
        constructor
        · rw [deletes.db]
          exact waiting.stored
        · rw [deletes.db]
          exact waiting.some
        · intro row inAfter rowApp
          rw [deletes.db] at inAfter
          have wasListed := waiting.listed row inAfter rowApp
          exact (List.mem_cons.mp wasListed).resolve_left (unserved row inAfter)
  · intro other owns
    cases remaining.managed other owns with
    | inl bare => exact .inl (bare.shrinks deletes.containers)
    | inr waiting =>
        cases List.mem_cons.mp waiting.2 with
        | inl same =>
            have isService := List.inj_on_of_nodup_map kept.managed waiting.1 stored
              (same.trans isId.symm)
            rw [isService]
            exact .inl deletes.bare
        | inr later =>
            cases dwindles.dropped other waiting.1 with
            | inl still => exact .inr ⟨still, later⟩
            | inr bare => exact .inl bare

/-- The id meant nothing of the user's. -/
theorem Remaining.passed (remaining : Remaining start owner (serviceId :: rest) estate)
    (error : ApiError) (unresolved : Resolves estate owner serviceId (.error error)) :
    Remaining start owner rest estate where
  kept := remaining.kept
  containers := remaining.containers
  users := remaining.users
  apps := by
    intro app owns
    cases remaining.apps app owns with
    | inl gone => exact .inl gone
    | inr waiting =>
        refine .inr ⟨waiting.stored, waiting.some, fun row stored rowApp => ?_⟩
        apply (List.mem_cons.mp (waiting.listed row stored rowApp)).resolve_left
        intro same
        obtain ⟨found, inApps, sameId, sameOwner⟩ := waiting.stored
        exact unresolved.1 row stored same found inApps (sameId.trans rowApp.symm) sameOwner
  managed := by
    intro service owns
    cases remaining.managed service owns with
    | inl bare => exact .inl bare
    | inr waiting =>
        refine .inr ⟨waiting.1, (List.mem_cons.mp waiting.2).resolve_left fun same => ?_⟩
        exact unresolved.2 service waiting.1 same owns.2

end Step

variable {start : Estate}

theorem delete_service_keeps (server : Server) (storageDir : String) {serviceId : Uuid}
    {rest : List Uuid} (remaining : Remaining start owner (serviceId :: rest) estate) :
    (deleteService server storageDir owner serviceId).run.Ensures carefulEstate.can
      (fun _ after => Remaining start owner rest after) estate := by
  unfold deleteService Program.Ensures
  rw [always_run_bind]
  refine (resolve_resolves remaining.kept owner serviceId).mono ?_
  intro result state resolved
  rw [resolved.1]
  cases result with
  | error error => exact remaining.passed error resolved.2
  | ok found =>
      cases found with
      | app app service =>
          obtain ⟨current, owned, isId, member⟩ := resolved.2
          dsimp only
          rw [← isId] at member remaining
          refine (delete_group_service_loses server remaining.kept.keyed current
            remaining.kept.managed member).mono ?_
          intro _ after loses
          exact remaining.lost current owned member loses
      | managed service =>
          obtain ⟨stored, isId, unserved⟩ := resolved.2
          refine (delete_under_deletes storageDir service estate).mono ?_
          intro _ after deleted
          exact remaining.deleted stored isId unserved deleted.2

theorem deletions_keep (server : Server) (storageDir : String) (rest : List Uuid)
    (remaining : Remaining start owner rest estate) :
    (forAll (fun serviceId => ignore (deleteService server storageDir owner serviceId))
      rest).Ensures carefulEstate.can (fun _ after => Remaining start owner [] after) estate := by
  induction rest generalizing estate with
  | nil => exact always_pure.mpr remaining
  | cons serviceId rest ih =>
      apply always_bind.mpr
      apply ignore_always.mpr
      refine (delete_service_keeps server storageDir remaining).mono ?_
      intro _ after kept
      exact ih kept

theorem inventory_remains (kept : WellKept start) (owner : Uuid) :
    Remaining start owner (start.inventory owner) start where
  kept := kept
  containers := shrinks_rfl start.world
  users := rfl
  apps := by
    intro app owns
    obtain ⟨stored, owned, some⟩ := owns
    refine .inr ⟨⟨app, stored, rfl, owned⟩, some, fun row inServices rowApp => ?_⟩
    have listed : row ∈ start.world.db.servicesByApp app.id :=
      mem_services_by_app.mpr ⟨inServices, rowApp⟩
    apply List.mem_append_left
    apply List.mem_flatMap.mpr
    exact ⟨app, List.mem_filter.mpr ⟨stored, decide_eq_true owned⟩, List.mem_map_of_mem listed⟩
  managed := by
    intro service owns
    refine .inr ⟨owns.1, List.mem_append_right _ ?_⟩
    exact List.mem_map_of_mem (List.mem_filter.mpr ⟨owns.1, decide_eq_true owns.2⟩)

theorem Remaining.app_gone {start estate : Estate} {owner : Uuid}
    (remaining : Remaining start owner [] estate) {app : App} (owns : OwnsApp start owner app) :
    AppGone app.id estate.world := by
  apply (remaining.apps app owns).resolve_right
  intro waiting
  obtain ⟨row, stored, rowApp⟩ := waiting.some
  cases waiting.listed row stored rowApp

theorem Remaining.unnamed {start estate : Estate} {owner : Uuid} (recorded : Recorded start)
    (remaining : Remaining start owner [] estate) {service : ManagedService}
    (owns : OwnsManaged start owner service) :
    ¬HasContainer service.resource estate.world := by
  have bare : Bare service estate := by
    apply (remaining.managed service owns).resolve_right
    intro waiting
    cases waiting.2
  intro left
  obtain ⟨container, member, produced⟩ := left
  cases ManagedService.produced_cases produced with
  | inl own =>
      obtain ⟨old, inStart, sameName, sameSerial⟩ := remaining.containers container member
      apply (bare container member).2
      rw [← sameSerial]
      exact recorded service owns.1 old inStart (sameName.trans own)
  | inr proxy => exact (bare container member).1 proxy.1 proxy.2

theorem leaves_nothing_unchanged (error : ApiError) :
    LeavesNothing start owner (.error error) start where
  apps := fun impossible => by cases impossible
  managed := fun impossible => by cases impossible
  user := fun _ known => known
  appRecords := fun _ app owns _ => ⟨owns, fun row stored _ => stored⟩
  managedRecords := fun _ service owns _ => owns.1

theorem attempt_cases {Reply : Type} {fault : Option String} {estate after : Estate}
    {served answer : Except String Reply}
    (attempted : attempt fault estate (served, estate) = (answer, after)) :
    after = estate ∧ (answer = served ∨ ∃ message, answer = .error message) := by
  cases fault with
  | none =>
      cases attempted
      exact ⟨rfl, .inl rfl⟩
  | some message =>
      cases attempted
      exact ⟨rfl, .inr ⟨message, rfl⟩⟩

/-- The loop and the deletion of the row. -/
theorem rest_leaves_nothing (server : Server) (storageDir : String) {start : Estate}
    {owner : Uuid} (kept : WellKept start) (recorded : Recorded start) :
    (do
      liftM (forAll (fun serviceId => ignore (deleteService server storageDir owner serviceId))
        (start.inventory owner))
      let _ ← orInternal (deleteUserRow owner)
      : HandlerProg Unit).run.Ensures carefulEstate.can (LeavesNothing start owner) start := by
  unfold Program.Ensures
  rw [always_run_lift_bind]
  refine (deletions_keep server storageDir _ (inventory_remains kept owner)).mono ?_
  intro _ state remaining
  rw [always_run_bind, or_internal_always]
  apply managed_always.mpr
  refine ⟨trivial, fun answer after can => ?_⟩
  obtain ⟨choice, -, result⟩ := can
  have attempted : attempt choice state
      (.ok (state.users.contains owner), state.deleteUser owner) = (answer, after) := result
  cases choice with
  | some message =>
      cases attempted
      constructor
      · intro impossible
        cases impossible
      · intro impossible
        cases impossible
      · intro _ known
        rw [remaining.users]
        exact known
      · intro _ app owns left
        exact absurd left (remaining.app_gone owns).none
      · intro _ service owns left
        exact absurd left (remaining.unnamed recorded owns)
  | none =>
      cases attempted
      apply always_run_pure.mpr
      constructor
      · intro _ app owns
        exact (remaining.app_gone owns).none
      · intro _ service owns
        exact remaining.unnamed recorded owns
      · intro failed
        exact absurd rfl failed
      · intro failed
        exact absurd rfl failed
      · intro failed
        exact absurd rfl failed

/-- Where every container asked for is removed and the store answers, deleting a user leaves
nothing of the user's behind. -/
theorem careful_deletion_leaves_nothing (server : Server) (storageDir : String) (owner : Uuid)
    (start : Estate) (kept : WellKept start) (recorded : Recorded start)
    {result : Except ApiError Unit} {after : Estate}
    (run : Runs carefulEstate.can (deleteUser server storageDir owner).run start result after) :
    LeavesNothing start owner result after := by
  have ensures : (deleteUser server storageDir owner).run.Ensures carefulEstate.can
      (LeavesNothing start owner) start := by
    unfold deleteUser Program.Ensures
    rw [always_run_bind]
    apply managed_always.mpr
    refine ⟨trivial, fun answer state can => ?_⟩
    obtain ⟨choice, -, result⟩ := can
    have same : start = state := congrArg Prod.snd result
    rw [← same]
    cases answer with
    | error error => exact leaves_nothing_unchanged error
    | ok admin =>
        dsimp only
        split_ifs
        · apply always_run_throw.mpr
          exact leaves_nothing_unchanged _
        rw [always_run_bind, or_internal_always]
        apply managed_always.mpr
        refine ⟨trivial, fun answer state can => ?_⟩
        obtain ⟨choice, -, result⟩ := can
        have attempted : attempt choice start (.ok (start.users.contains owner), start) =
            (answer, state) := result
        rw [(attempt_cases attempted).1]
        cases answer with
        | error message => exact leaves_nothing_unchanged _
        | ok found =>
            dsimp only
            split_ifs
            · apply always_run_throw.mpr
              exact leaves_nothing_unchanged _
            rw [always_run_bind, or_internal_always]
            apply managed_always.mpr
            refine ⟨trivial, fun answer state can => ?_⟩
            obtain ⟨choice, -, result⟩ := can
            have attempted : attempt choice start (.ok (start.inventory owner), start) =
                (answer, state) := result
            obtain ⟨same, listed⟩ := attempt_cases attempted
            rw [same]
            cases listed with
            | inl isInventory =>
                rw [isInventory]
                exact rest_leaves_nothing server storageDir kept recorded
            | inr failed =>
                obtain ⟨message, isError⟩ := failed
                rw [isError]
                exact leaves_nothing_unchanged _
  exact ensures.runs run

def ownedDatabase : ManagedService :=
  { ManagedService.newWithPath .database ⟨7⟩ Worker.demoApp.ownerId "/data/containr" with
    containerId := some 2 }

def ownedEstate : Estate where
  world := { Worker.demoWorld with
    containers := [
      ⟨1, Worker.containerName Worker.demoApp Worker.demoService 0 Worker.demoDeployment.id,
        .seed "nginx:1", true⟩,
      ⟨2, ownedDatabase.containerName, .seed "postgres:16", true⟩]
    nextSerial := 3 }
  managed := [ownedDatabase]
  users := [Worker.demoApp.ownerId]

theorem owned_estate_kept : WellKept ownedEstate where
  keyed := ⟨by decide, by decide⟩
  managed := by decide
  apart := by decide

theorem owned_estate_recorded : Recorded ownedEstate := by
  unfold Recorded
  decide +kernel

instance estateAdmits : (op : EstateEffects.Op) → (choice : estateSystem.Choice op) →
    (estate : Estate) → Decidable (estateSystem.Admits op choice estate)
  | .inl op, choice, estate => Op.decidableAdmits op choice estate.world
  | .inr _, _, _ => .isTrue trivial

instance carefulAdmits (op : EstateEffects.Op) (choice : carefulEstate.Choice op)
    (estate : Estate) : Decidable (carefulEstate.Admits op choice estate) :=
  @instDecidableAnd _ _ (estateAdmits op choice estate) inferInstance

/-- Nothing fails. -/
def calmDeletion : carefulEstate.Policy := fun op estate => calmEstate op (estate, [])

def unlisted : estateSystem.Policy
  | .inl (.docker .listContainers), _ => some "cannot connect to the docker daemon"
  | op, estate => calmEstate op (estate, [])

theorem unlisted_admitted (op : EstateEffects.Op) (estate : Estate) :
    estateSystem.Admits op (unlisted op estate) estate := by
  cases op with
  | inr op => trivial
  | inl op =>
      cases op with
      | docker request => trivial
      | _ => exact calm_admitted _ estate.world

def deleteOwner : Prog (Except ApiError Unit) :=
  (deleteUser demoServer "/data/containr" Worker.demoApp.ownerId).run

theorem careful_deletion_leaves_nothing_owned : ∃ after,
    Runs carefulEstate.can deleteOwner ownedEstate (.ok ()) after ∧
      LeavesNothing ownedEstate Worker.demoApp.ownerId (.ok ()) after := by
  have ran : (deleteOwner.runChecked carefulEstate calmDeletion ownedEstate).any
      (fun reached => reached.1.isOk) = true := by decide +kernel
  cases executed : deleteOwner.runChecked carefulEstate calmDeletion ownedEstate with
  | none =>
      rw [executed] at ran
      cases ran
  | some reached =>
      obtain ⟨result, after⟩ := reached
      rw [executed] at ran
      cases result with
      | error error => cases ran
      | ok _ =>
          have run := Runs.of_checked executed
          exact ⟨after, run, careful_deletion_leaves_nothing demoServer "/data/containr"
            Worker.demoApp.ownerId ownedEstate owned_estate_kept owned_estate_recorded run⟩

/-- The failed listing is logged, the row of the user goes, and the replica runs on. -/
theorem replica_outlives_user : ∃ after,
    WellKept ownedEstate ∧ Recorded ownedEstate ∧
      Runs estateSystem.can deleteOwner ownedEstate (.ok ()) after ∧
      ¬LeavesNothing ownedEstate Worker.demoApp.ownerId (.ok ()) after := by
  have run := runs_run estateSystem unlisted unlisted_admitted deleteOwner ownedEstate
  have succeeds : (deleteOwner.run estateSystem unlisted ownedEstate).1.isOk = true := by
    decide +kernel
  have left : (deleteOwner.run estateSystem unlisted ownedEstate).2.world.hasContainer
      (Worker.containerName Worker.demoApp Worker.demoService 0 Worker.demoDeployment.id) = true := by
    decide +kernel
  cases isResult : (deleteOwner.run estateSystem unlisted ownedEstate).1 with
  | error error =>
      rw [isResult] at succeeds
      cases succeeds
  | ok _ =>
      rw [isResult] at run
      refine ⟨_, owned_estate_kept, owned_estate_recorded, run, fun leaves => ?_⟩
      have owns : OwnsApp ownedEstate Worker.demoApp.ownerId { Worker.demoApp with services := [] } :=
        ⟨List.mem_cons_self, rfl, Worker.demoService, List.mem_cons_self, rfl⟩
      apply leaves.apps rfl _ owns
      obtain ⟨container, member, named⟩ := List.any_eq_true.mp left
      refine ⟨container, member, .inl ?_⟩
      exact ⟨Worker.demoApp, Worker.demoService, 0, Worker.demoDeployment.id, rfl,
        of_decide_eq_true named⟩

end Containr.Managed
