import Containr.Api.Identity
import Containr.Effect.Observed
import Containr.Managed.Services

/-!
# The data of a deleted managed service

A managed service keeps its data under the storage directory of the configuration. The
direct deletion tests the data against that directory, the deletion of the group against
the data directory of the server. The observer lists the directories a run asked to remove.
-/

namespace Containr.Managed

open Containr.Effect Containr.Effect.Program Containr.Api.Services

def CreatedUnder (storageDir : String) (service : ManagedService) : Prop :=
  service.hostDataPath =
    (ManagedService.newWithPath service.kind service.id service.ownerId storageDir).hostDataPath

theorem directory_plain (kind : ManagedKind) : Path.PlainName kind.directory := by
  cases kind with
  | database => constructor <;> decide
  | queue => constructor <;> decide

theorem data_plain : Path.PlainName "data" := by constructor <;> decide

def ownComponents (service : ManagedService) : List Path.Component :=
  [.normal service.kind.directory.toList, .normal service.id.toString.toList]

theorem root_path_created {storageDir : String} {service : ManagedService}
    (created : CreatedUnder storageDir service) :
    service.rootPath = Path.components storageDir ++ ownComponents service := by
  have below : Path.components service.hostDataPath =
      (Path.components storageDir ++ ownComponents service) ++
        [.normal ("data" : String).toList] := by
    rw [created]
    unfold ManagedService.newWithPath ownComponents
    rw [Path.components_join data_plain, Path.components_join (uuid_plain service.id),
      Path.components_join (directory_plain service.kind)]
    simp
  unfold ManagedService.rootPath Path.parent
  rw [below]
  simp

/-- The directory is the storage directory or one above it, the directory of all services of
the kind, or the service's own. -/
def Covers (dataDir storageDir : String) (service : ManagedService) : Prop :=
  Path.startsWith storageDir dataDir = true ∨
    Path.components dataDir =
      Path.components storageDir ++ [.normal service.kind.directory.toList] ∨
    Path.components dataDir = Path.components storageDir ++ ownComponents service

theorem prefix_root_iff {dataDir storageDir : String} {service : ManagedService}
    (created : CreatedUnder storageDir service) :
    Path.components dataDir <+: service.rootPath ↔ Covers dataDir storageDir service := by
  have split : ownComponents service =
      [.normal service.kind.directory.toList] ++ [.normal service.id.toString.toList] := rfl
  rw [root_path_created created]
  unfold Covers
  rw [split, ← List.append_assoc, List.prefix_concat_iff, List.prefix_concat_iff,
    Path.starts_with_iff]
  constructor
  · intro below
    rcases below with own | kind | above
    · exact .inr (.inr own)
    · exact .inr (.inl kind)
    · exact .inl above
  · intro covers
    rcases covers with above | kind | own
    · exact .inr (.inr above)
    · exact .inr (.inl kind)
    · exact .inl own

def removals : Observer EstateEffects (List (List Path.Component)) := fun seen op _ =>
  match op with
  | .inl (.external (.removeDirAll path)) => Path.components path :: seen
  | .inr (.removeDirAll root) => root :: seen
  | _ => seen

abbrev Watched : Type := Estate × List (List Path.Component)

abbrev watchedSystem : Machine EstateEffects Watched := estateSystem.observed removals

/-- The directory went, or one it lies in. -/
def Removed (watched : Watched) (root : List Path.Component) : Prop :=
  ∃ dir ∈ watched.2, dir <+: root

/-- A call that removes nothing outside the directory. -/
def Inside (dir : List Path.Component) : EstateEffects.Op → Prop
  | .inl (.external (.removeDirAll path)) => dir <+: Path.components path
  | .inr (.removeDirAll root) => dir <+: root
  | _ => True

def WorldInside (dir : List Path.Component) (op : Op) : Prop := Inside dir (.inl op)

section Calls

variable {dir : List Path.Component}

def Stopping : EstateEffects.Op → Prop
  | .inr (.removeIfExists _) | .inr (.stopContainer _) | .inr (.removeContainer _)
  | .inr (.networkExists _) | .inl (.external (.removeNetwork _)) => True
  | _ => False

theorem remove_network_calls (name : String) :
    (removeNetworkIfExists name).run.Calls Stopping := by
  apply Calls.run_lift_bind (managed_calls trivial)
  intro present
  split_ifs
  · have network : (Op.external (.removeNetwork name)).call.Calls
        fun op => Stopping (.inl op) := op_calls trivial
    exact network.inl fun _ stopping => stopping
  · exact calls_run_pure ()

theorem stop_managed_calls (service : ManagedService) :
    (stopManaged service).run.Calls Stopping := by
  unfold stopManaged
  apply Calls.run_bind
  · unfold stopProxyFrontend
    cases service.kind with
    | database =>
        have proxy : (removeContainerIfExists service.proxyContainerName).run.Calls Stopping :=
          managed_calls trivial
        exact proxy
    | queue => exact calls_run_pure ()
  intro _
  apply Calls.run_lift_bind
  · unfold stopOwnContainer
    cases service.containerId with
    | none => exact calls_pure ()
    | some serial =>
        apply Calls.bind (managed_calls trivial)
        intro _
        exact Calls.bind (managed_calls trivial) fun _ => calls_pure ()
  intro _
  split_ifs
  · exact remove_network_calls service.networkName
  · exact calls_run_pure ()

/-- A deletion stops, removes the data if that lies under the directory, and deletes. -/
theorem delete_under_calls {allowed : EstateEffects.Op → Prop} {dataDir : String}
    {service : ManagedService} (stops : ∀ op, Stopping op → allowed op)
    (removes : Path.components dataDir <+: service.rootPath →
      allowed (.inr (.removeDirAll service.rootPath)))
    (deletes : allowed (.inr (.delete service.kind service.id))) :
    (deleteUnder dataDir service).run.Calls allowed := by
  apply Calls.run_lift_bind (ignore_calls ((stop_managed_calls service).mono stops))
  intro _
  apply Calls.run_lift_bind
  · unfold removeData
    split_ifs with under
    · have inside : Path.components dataDir <+: service.rootPath :=
        List.isPrefixOf_iff_prefix.mp under
      exact Calls.bind (managed_calls (removes inside)) fun _ => calls_pure ()
    · exact calls_pure ()
  intro _
  have record : (deleteRecord service.kind service.id).run.Calls allowed := managed_calls deletes
  exact Calls.run_return (or_internal_calls record)

theorem inside_of_stopping (op : EstateEffects.Op) (stopping : Stopping op) : Inside dir op := by
  cases op with
  | inl op =>
      cases op with
      | external action =>
          cases action with
          | removeDirAll path => exact stopping.elim
          | _ => trivial
      | _ => trivial
  | inr op =>
      cases op with
      | removeDirAll root => exact stopping.elim
      | _ => trivial

theorem delete_under_inside {dataDir : String} (service : ManagedService) :
    (deleteUnder dataDir service).run.Calls (Inside (Path.components dataDir)) :=
  delete_under_calls inside_of_stopping (fun inside => inside) trivial

theorem app_mount_root_inside (dataDir : String) (appId : Uuid) :
    Path.components dataDir <+: Path.components (appMountRoot dataDir appId) := by
  have builds : Path.PlainName "builds" := by constructor <;> decide
  have mounts : Path.PlainName "app-mounts" := by constructor <;> decide
  unfold appMountRoot
  rw [Path.components_join (uuid_plain appId), Path.components_join mounts,
    Path.components_join builds, List.append_assoc, List.append_assoc]
  exact List.prefix_append _ _

theorem mount_root_inside {server : Server} {app : App} {root : String}
    (member : root ∈ app.services.map (fun service =>
      serviceMountRoot server.dataDir app.id service.id) ++
        [Path.join (appMountRoot server.dataDir app.id) sharedMountsDir]) :
    Path.components server.dataDir <+: Path.components root := by
  have above := app_mount_root_inside server.dataDir app.id
  cases List.mem_append.mp member with
  | inl own =>
      obtain ⟨service, -, isRoot⟩ := List.mem_map.mp own
      rw [← isRoot, serviceMountRoot, Path.components_join (uuid_plain service.id)]
      exact above.trans (List.prefix_append _ _)
  | inr shared =>
      have plain : Path.PlainName sharedMountsDir := by constructor <;> decide
      rw [List.mem_singleton.mp shared, Path.components_join plain]
      exact above.trans (List.prefix_append _ _)

theorem stop_service_replica_inside (container : String) :
    (stopServiceReplica container).Calls (WorldInside dir) := by
  have stops : (stopContainer container).Calls (WorldInside dir) :=
    Containr.ignore_calls (op_calls trivial)
  apply stops.bind
  intro _
  apply stops.bind
  intro _
  exact Containr.ignore_calls (op_calls trivial)

theorem app_runtime_inside (server : Server) (app : App) :
    (deleteAppRuntime server app).run.Calls (WorldInside (Path.components server.dataDir)) := by
  apply Calls.run_bind (Containr.or_internal_calls (op_calls trivial))
  intro containers
  apply Calls.run_lift_bind
  · apply calls_for_all
    intro name _
    exact stop_service_replica_inside name
  intro _
  apply Calls.run_bind (Containr.or_internal_calls (op_calls trivial))
  intro _
  apply calls_for_each
  intro root member
  exact Calls.bind (op_calls (mount_root_inside member)) fun _ => calls_pure _

theorem grouped_services_inside (app : App) (kind : ManagedKind) :
    (groupedServices app kind).run.Calls (Inside dir) := by
  have listing : (listRecords kind app.ownerId).run.Calls (Inside dir) := managed_calls trivial
  exact Calls.run_return (or_internal_calls listing)

theorem delete_group_inside (server : Server) (app : App) :
    (deleteGroupRuntime server app).run.Calls (Inside (Path.components server.dataDir)) := by
  have grouped : ∀ kind, (deleteGrouped server app kind).run.Calls
      (Inside (Path.components server.dataDir)) := by
    intro kind
    apply Calls.run_bind (grouped_services_inside app kind)
    intro services
    apply calls_for_each
    intro service _
    exact delete_under_inside service
  apply Calls.run_bind (grouped .database)
  intro _
  apply Calls.run_bind (grouped .queue)
  intro _
  exact on_world_calls (app_runtime_inside server app) fun _ inside => inside

end Calls

section Watched

variable {op : EstateEffects.Op} {before after : Watched} {answer : EstateEffects.Answer op}

theorem watched_removals (possible : watchedSystem.can op before answer after) :
    after.2 = removals before.2 op answer := (observed_iff.mp possible).2

theorem removals_grow (possible : watchedSystem.can op before answer after)
    {root : List Path.Component} (asked : root ∈ before.2) : root ∈ after.2 := by
  rw [watched_removals possible]
  unfold removals
  split
  · exact List.mem_cons_of_mem _ asked
  · exact List.mem_cons_of_mem _ asked
  · exact asked

theorem removals_inside {dir : List Path.Component} (inside : Inside dir op)
    (possible : watchedSystem.can op before answer after)
    (held : ∀ root ∈ before.2, dir <+: root) : ∀ root ∈ after.2, dir <+: root := by
  intro root member
  rw [watched_removals possible] at member
  unfold removals at member
  split at member
  · cases List.mem_cons.mp member with
    | inl same =>
        rw [same]
        exact inside
    | inr earlier => exact held root earlier
  · cases List.mem_cons.mp member with
    | inl same =>
        rw [same]
        exact inside
    | inr earlier => exact held root earlier
  · exact held root member

theorem removal_asked {root : List Path.Component} {answer : ManagedOp.Answer (.removeDirAll root)}
    (possible : watchedSystem.can (.inr (.removeDirAll root)) before answer after) :
    root ∈ after.2 := by
  rw [watched_removals possible]
  exact List.mem_cons_self

end Watched

variable {watched : Watched} {Value : Type}

theorem asked_kept (program : Prog Value) {root : List Path.Component} (asked : root ∈ watched.2) :
    program.Ensures watchedSystem.can (fun _ after => root ∈ after.2) watched := by
  have keeps : ∀ op before answer after, root ∈ (before : Watched).2 →
      watchedSystem.can op before answer after → root ∈ after.2 :=
    fun op before answer after held possible => removals_grow possible held
  have kept := always_of_step program keeps asked
  exact kept.restrict (fun _ _ _ _ possible => possible) fun _ _ _ => trivial

theorem anything_ensures {face : Interface} {State : Type} {can : Behaviour face State}
    (program : Program face Value) (state : State) : program.Ensures can (fun _ _ => True) state :=
  always_of_runs fun _ _ _ => trivial

theorem delete_under_removes {dataDir : String} {service : ManagedService}
    (inside : Path.components dataDir <+: service.rootPath) (watched : Watched) :
    (deleteUnder dataDir service).run.Ensures watchedSystem.can
      (fun _ after => service.rootPath ∈ after.2) watched := by
  unfold deleteUnder Program.Ensures
  rw [always_run_lift_bind]
  refine (anything_ensures (ignore (stopManaged service)) watched).mono ?_
  intro _ stopped _
  rw [always_run_lift_bind]
  have removing : (removeData dataDir service).Ensures watchedSystem.can
      (fun _ after => service.rootPath ∈ after.2) stopped := by
    unfold removeData Program.Ensures
    rw [if_pos (List.isPrefixOf_iff_prefix.mpr inside), always_bind, managed_always]
    constructor
    · trivial
    · intro answer after possible
      rw [always_pure]
      exact removal_asked possible
  refine removing.mono ?_
  intro _ removed asked
  exact asked_kept _ asked

/-- A call that keeps the records of the kind. -/
def Spares (kind : ManagedKind) : EstateEffects.Op → Prop
  | .inr (.delete other _) => other ≠ kind
  | .inr (.save _) | .inr (.deleteUser _) => False
  | _ => True

theorem spares_of_stopping {kind : ManagedKind} (op : EstateEffects.Op) (stopping : Stopping op) :
    Spares kind op := by
  cases op with
  | inl op => trivial
  | inr op =>
      cases op with
      | delete other id => exact stopping.elim
      | save service => exact stopping.elim
      | deleteUser id => exact stopping.elim
      | _ => trivial

theorem attempt_estate {Reply : Type} (kept : Estate → Prop) (fault : Option String)
    {estate : Estate} {served : Except String Reply × Estate} (before : kept estate)
    (after : kept served.2) : kept (attempt fault estate served).2 := by
  cases fault with
  | none => exact after
  | some message => exact before

theorem spared_step {op : EstateEffects.Op} {before after : Watched}
    {answer : EstateEffects.Answer op} {service : ManagedService} (spares : Spares service.kind op)
    (possible : watchedSystem.can op before answer after) (stored : service ∈ before.1.managed) :
    service ∈ after.1.managed := by
  obtain ⟨choice, -, result⟩ := (observed_iff.mp possible).1
  have isAfter : (estateSystem.exec op choice before.1).2 = after.1 := congrArg Prod.snd result
  rw [← isAfter]
  cases op with
  | inl op => exact stored
  | inr op =>
      cases op with
      | save other => exact spares.elim
      | deleteUser id => exact spares.elim
      | delete kind id =>
          have other : Estate.isRecord kind id service = false := by
            have different : service.kind ≠ kind := fun same => spares same.symm
            simp [Estate.isRecord, different]
          have kept : service ∈ before.1.managed.filter fun record =>
              !Estate.isRecord kind id record :=
            List.mem_filter.mpr ⟨stored, by simp [other]⟩
          exact attempt_estate (fun estate => service ∈ estate.managed) choice stored kept
      | removeContainer serial =>
          have kept : service ∈ (before.1.removeContainer serial).2.managed := by
            unfold Estate.removeContainer
            split_ifs
            · exact stored
            · exact stored
          exact attempt_estate (fun estate => service ∈ estate.managed) choice stored kept
      | requireAdmin => exact stored
      | networkExists name => exact stored
      | removeDirAll root => exact stored
      | _ => exact attempt_estate (fun estate => service ∈ estate.managed) choice stored stored

variable {server : Server} {app : App} {service : ManagedService}

theorem grouped_services_answers (kind : ManagedKind) (watched : Watched) :
    (groupedServices app kind).run.Ensures watchedSystem.can
      (fun result after => after.1 = watched.1 ∧ ∀ grouped, result = .ok grouped →
        ∀ service, service ∈ grouped ↔ service ∈ watched.1.managed ∧ service.kind = kind ∧
          service.ownerId = app.ownerId ∧ service.groupId = some app.id) watched := by
  have listing : (listRecords kind app.ownerId).run.Ensures watchedSystem.can
      (fun result after => after.1 = watched.1 ∧ ∀ listed, result = .ok listed →
        listed = watched.1.managed.filter fun service =>
          service.kind = kind && service.ownerId = app.ownerId) watched := by
    apply managed_always.mpr
    constructor
    · trivial
    · intro answer after possible
      obtain ⟨choice, -, result⟩ := (observed_iff.mp possible).1
      cases choice with
      | some message =>
          have failed : (Except.error message : Except String (List ManagedService)) = answer :=
            congrArg Prod.fst result
          have same : watched.1 = after.1 := congrArg Prod.snd result
          refine ⟨same.symm, fun listed ok => ?_⟩
          rw [ok] at failed
          cases failed
      | none =>
          have answered : (Except.ok (watched.1.managed.filter fun service =>
              service.kind = kind && service.ownerId = app.ownerId) :
                Except String (List ManagedService)) = answer := congrArg Prod.fst result
          have same : watched.1 = after.1 := congrArg Prod.snd result
          refine ⟨same.symm, fun listed ok => ?_⟩
          rw [ok] at answered
          exact (Except.ok.inj answered).symm
  unfold groupedServices Program.Ensures
  rw [always_run_bind, or_internal_always]
  refine listing.mono ?_
  intro result after lists
  cases result with
  | error message => exact ⟨lists.1, fun grouped impossible => by cases impossible⟩
  | ok listed =>
      dsimp only
      rw [always_run_pure]
      refine ⟨lists.1, fun grouped ok service => ?_⟩
      rw [← Except.ok.inj ok, lists.2 listed rfl, List.mem_filter, List.mem_filter]
      simp [and_assoc]

theorem delete_grouped_removes (inside : Path.components server.dataDir <+: service.rootPath)
    {watched : Watched} (stored : service ∈ watched.1.managed)
    (grouped : service.groupId = some app.id) (owned : service.ownerId = app.ownerId) :
    (deleteGrouped server app service.kind).run.Ensures watchedSystem.can
      (fun result after => result = .ok () → service.rootPath ∈ after.2) watched := by
  unfold deleteGrouped Program.Ensures
  rw [always_run_bind]
  refine (grouped_services_answers service.kind watched).mono ?_
  intro result after lists
  cases result with
  | error error =>
      intro impossible
      cases impossible
  | ok listed =>
      have member : service ∈ listed :=
        (lists.2 listed rfl service).mpr ⟨stored, rfl, owned, grouped⟩
      dsimp only
      rw [always_run_mk]
      apply always_for_each (fun done state => service ∈ done → service.rootPath ∈ (state : Watched).2)
        listed [] after
      · intro impossible
        cases impossible
      · intro state held _
        exact held (by simpa using member)
      · intro before item rest state _ held
        by_cases isItem : service = item
        · rw [← isItem]
          refine (delete_under_removes inside state).mono ?_
          intro outcome removed asked
          cases outcome with
          | ok _ =>
              intro _
              exact asked
          | error error =>
              intro impossible
              cases impossible
        · by_cases earlier : service ∈ [] ++ before
          · refine (asked_kept _ (held earlier)).mono ?_
            intro outcome removed asked
            cases outcome with
            | ok _ =>
                intro _
                exact asked
            | error error =>
                intro impossible
                cases impossible
          · refine (anything_ensures _ state).mono ?_
            intro outcome removed _
            cases outcome with
            | ok _ =>
                intro done
                cases List.mem_append.mp done with
                | inl before => exact absurd before earlier
                | inr last => exact absurd (List.mem_singleton.mp last) isItem
            | error error =>
                intro impossible
                cases impossible

/-- The deletions of one kind keep the records of the other. -/
theorem delete_grouped_spares {kind : ManagedKind} (different : kind ≠ service.kind)
    (stored : service ∈ watched.1.managed) :
    (deleteGrouped server app kind).run.Ensures watchedSystem.can
      (fun _ after => service ∈ after.1.managed) watched := by
  unfold deleteGrouped Program.Ensures
  rw [always_run_bind]
  refine (grouped_services_answers kind watched).mono ?_
  intro result after lists
  cases result with
  | error error =>
      dsimp only
      rw [lists.1]
      exact stored
  | ok listed =>
      dsimp only
      rw [always_run_mk]
      apply always_for_each (fun _ state => service ∈ (state : Watched).1.managed) listed [] after
      · rw [lists.1]
        exact stored
      · intro state held
        exact held
      · intro before item rest state split held
        have member : item ∈ listed := by simp [split]
        have ofKind : item.kind = kind := ((lists.2 listed rfl item).mp member).2.1
        have calls : (deleteUnder server.dataDir item).run.Calls (Spares service.kind) := by
          apply delete_under_calls spares_of_stopping fun _ => trivial
          rw [ofKind]
          exact different
        have keeps : ∀ op before answer after, Spares service.kind op →
            service ∈ (before : Watched).1.managed → watchedSystem.can op before answer after →
              service ∈ after.1.managed :=
          fun op before answer after spares held possible => spared_step spares possible held
        have kept := calls.always keeps held
        refine (kept.restrict (fun _ _ _ _ possible => possible) fun _ _ _ => trivial).mono ?_
        intro outcome next still
        cases outcome with
        | ok _ => exact still
        | error error => exact still

theorem delete_group_removes (inside : Path.components server.dataDir <+: service.rootPath)
    (stored : service ∈ watched.1.managed) (grouped : service.groupId = some app.id)
    (owned : service.ownerId = app.ownerId) :
    (deleteGroupRuntime server app).run.Ensures watchedSystem.can
      (fun result after => result = .ok () → service.rootPath ∈ after.2) watched := by
  unfold deleteGroupRuntime Program.Ensures
  rw [always_run_bind]
  cases isKind : service.kind with
  | database =>
      have databases := @delete_grouped_removes server app service inside watched stored grouped owned
      rw [isKind] at databases
      refine databases.mono ?_
      intro result after asked
      cases result with
      | error error =>
          intro impossible
          cases impossible
      | ok _ =>
          refine (asked_kept _ (asked rfl)).mono ?_
          intro _ final still _
          exact still
  | queue =>
      have different : ManagedKind.database ≠ service.kind := by simp [isKind]
      refine (delete_grouped_spares different stored).mono ?_
      intro result after still
      cases result with
      | error error =>
          intro impossible
          cases impossible
      | ok _ =>
          dsimp only
          rw [always_run_bind]
          have queues := @delete_grouped_removes server app service inside after still grouped owned
          rw [isKind] at queues
          refine queues.mono ?_
          intro result last asked
          cases result with
          | error error =>
              intro impossible
              cases impossible
          | ok _ =>
              refine (asked_kept _ (asked rfl)).mono ?_
              intro _ final kept _
              exact kept

theorem runs_inside {dir : List Path.Component} {program : Prog Value}
    (calls : program.Calls (Inside dir)) {estate : Estate} {value : Value} {final : Watched}
    (run : Runs watchedSystem.can program (estate, []) value final) :
    ∀ root ∈ final.2, dir <+: root := by
  have keeps : ∀ op before answer after, Inside dir op →
      (∀ root ∈ (before : Watched).2, dir <+: root) → watchedSystem.can op before answer after →
        ∀ root ∈ after.2, dir <+: root :=
    fun op before answer after inside held possible => removals_inside inside possible held
  have start : ∀ root ∈ ((estate, []) : Watched).2, dir <+: root := by
    intro root impossible
    cases impossible
  exact (calls.always keeps start).runs run

/-- The group takes the data along exactly when the data directory of the server covers it; the
direct deletion always does. -/
theorem managed_deletion_agrees_iff (server : Server) (storageDir : String) (app : App)
    (service : ManagedService) (created : CreatedUnder storageDir service)
    (grouped : service.groupId = some app.id) (owned : service.ownerId = app.ownerId)
    (estate : Estate) (stored : service ∈ estate.managed)
    {result : Except ApiError Unit} {direct group : Watched}
    (directly : Runs watchedSystem.can (deleteManaged storageDir service).run (estate, []) result
      direct)
    (withGroup : Runs watchedSystem.can (deleteGroupRuntime server app).run (estate, []) (.ok ())
      group) :
    (Removed group service.rootPath ↔ Removed direct service.rootPath) ↔
      Covers server.dataDir storageDir service := by
  have own : Path.components storageDir <+: service.rootPath := by
    rw [root_path_created created]
    exact List.prefix_append _ _
  have removedDirectly : Removed direct service.rootPath :=
    ⟨service.rootPath, (delete_under_removes own _).runs directly, List.prefix_refl _⟩
  rw [← prefix_root_iff created]
  constructor
  · intro agree
    obtain ⟨dir, asked, above⟩ := agree.mpr removedDirectly
    have inside := runs_inside (delete_group_inside server app) withGroup dir asked
    exact inside.trans above
  · intro inside
    have asked := (delete_group_removes inside stored grouped owned).runs withGroup rfl
    constructor
    · intro _
      exact removedDirectly
    · intro _
      exact ⟨service.rootPath, asked, List.prefix_refl _⟩

/-- Nothing fails, and no network is in the way. -/
def calmEstate : watchedSystem.Policy
  | .inl op, watched => calm op watched.1.world
  | .inr op, _ =>
      match op with
      | .requireAdmin => .ok ⟨0⟩
      | .networkExists _ => false
      | .removeDirAll _ => .ok ()
      | .userExists _ | .serviceInventory _ | .deleteUser _ | .list _ _ | .find _ _ | .save _
      | .delete _ _ | .removeIfExists _ | .stopContainer _ | .removeContainer _ => none

theorem calm_estate_admitted (op : EstateEffects.Op) (watched : Watched) :
    watchedSystem.Admits op (calmEstate op watched) watched := by
  cases op with
  | inl op => exact calm_admitted op watched.1.world
  | inr op => trivial

def groupedDatabase (storageDir : String) : ManagedService :=
  { ManagedService.newWithPath .database ⟨7⟩ Worker.demoApp.ownerId storageDir with
    groupId := some Worker.demoApp.id }

def groupedEstate (storageDir : String) : Estate :=
  ⟨Worker.demoWorld, [groupedDatabase storageDir], [Worker.demoApp.ownerId]⟩

def serverAt (dataDir : String) : Server := { demoServer with dataDir := dataDir }

theorem both_delete (dataDir storageDir : String)
    (directly : ((deleteManaged storageDir (groupedDatabase storageDir)).run.run watchedSystem
      calmEstate (groupedEstate storageDir, [])).1.isOk = true)
    (withGroup : ((deleteGroupRuntime (serverAt dataDir) Worker.demoApp).run.run watchedSystem
      calmEstate (groupedEstate storageDir, [])).1.isOk = true) :
    ∃ direct group,
      Runs watchedSystem.can (deleteManaged storageDir (groupedDatabase storageDir)).run
        (groupedEstate storageDir, []) (.ok ()) direct ∧
      Runs watchedSystem.can (deleteGroupRuntime (serverAt dataDir) Worker.demoApp).run
        (groupedEstate storageDir, []) (.ok ()) group := by
  have first := runs_run watchedSystem calmEstate calm_estate_admitted
    (deleteManaged storageDir (groupedDatabase storageDir)).run (groupedEstate storageDir, [])
  have second := runs_run watchedSystem calmEstate calm_estate_admitted
    (deleteGroupRuntime (serverAt dataDir) Worker.demoApp).run (groupedEstate storageDir, [])
  cases one : ((deleteManaged storageDir (groupedDatabase storageDir)).run.run watchedSystem
      calmEstate (groupedEstate storageDir, [])).1 with
  | error error => simp [one, Except.isOk, Except.toBool] at directly
  | ok _ =>
      cases two : ((deleteGroupRuntime (serverAt dataDir) Worker.demoApp).run.run watchedSystem
          calmEstate (groupedEstate storageDir, [])).1 with
      | error error => simp [two, Except.isOk, Except.toBool] at withGroup
      | ok _ =>
          rw [one] at first
          rw [two] at second
          exact ⟨_, _, first, second⟩

/-- With the storage below the data directory, as the installer sets it up, both remove. -/
theorem managed_deletion_agrees_iff_installed : ∃ direct group,
    (Removed group (groupedDatabase "/opt/containr/data/storage").rootPath ↔
      Removed direct (groupedDatabase "/opt/containr/data/storage").rootPath) := by
  obtain ⟨direct, group, directly, withGroup⟩ :=
    both_delete "/opt/containr/data" "/opt/containr/data/storage" (by decide +kernel)
      (by decide +kernel)
  have covers : Covers "/opt/containr/data" "/opt/containr/data/storage"
      (groupedDatabase "/opt/containr/data/storage") := .inl (by decide +kernel)
  exact ⟨direct, group, (managed_deletion_agrees_iff (serverAt "/opt/containr/data")
    "/opt/containr/data/storage" Worker.demoApp (groupedDatabase "/opt/containr/data/storage") rfl
    rfl rfl (groupedEstate "/opt/containr/data/storage") List.mem_cons_self directly
    withGroup).mpr covers⟩

/-- With the default storage directory the group leaves the data behind. -/
theorem grouped_data_left : ∃ direct group,
    Runs watchedSystem.can (deleteManaged "/data/containr" (groupedDatabase "/data/containr")).run
      (groupedEstate "/data/containr", []) (.ok ()) direct ∧
    Runs watchedSystem.can (deleteGroupRuntime (serverAt "/opt/containr/data") Worker.demoApp).run
      (groupedEstate "/data/containr", []) (.ok ()) group ∧
    Removed direct (groupedDatabase "/data/containr").rootPath ∧
    ¬Removed group (groupedDatabase "/data/containr").rootPath := by
  obtain ⟨direct, group, directly, withGroup⟩ :=
    both_delete "/opt/containr/data" "/data/containr" (by decide +kernel) (by decide +kernel)
  have own : Path.components "/data/containr" <+: (groupedDatabase "/data/containr").rootPath := by
    decide +kernel
  refine ⟨direct, group, directly, withGroup, ?_, ?_⟩
  · exact ⟨_, (delete_under_removes own _).runs directly, List.prefix_refl _⟩
  · intro removed
    obtain ⟨dir, asked, above⟩ := removed
    have inside := runs_inside (delete_group_inside (serverAt "/opt/containr/data") Worker.demoApp)
      withGroup dir asked
    have outside : ¬Path.components "/opt/containr/data" <+:
        (groupedDatabase "/data/containr").rootPath := by decide +kernel
    exact outside (inside.trans above)

end Containr.Managed
