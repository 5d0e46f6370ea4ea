import Containr.Api.ContainerNames
import Containr.Api.InProgress
import Containr.Effect.Observed
import Containr.Rollout.Containers

/-!
# Containers left without a record

`start_app_service` and `reconcile_app_service_replicas` save the deployment once, after the
last replica. When a replica fails before that, the containers started so far stay, and so
does the one that failed, unless its health check was answered.
-/

namespace Containr.Api.Services

open Containr.Effect Containr.Effect.Program Containr.Worker Containr.Rollout
open Containr.Api.ContainerNames (replica_container_name_eq container_name_inj)

/-- The replica containers that were created and not found unhealthy, and whether the
deployment was saved. -/
structure Seen where
  left : List String
  saved : Bool
deriving DecidableEq, Repr

def observe : Observer Effects Seen
  | seen, .docker (.createContainer name (.service _)), .ok _ =>
      { seen with left := seen.left ++ [name] }
  | seen, .external (.waitForHealthy name _), .ok false =>
      { seen with left := seen.left.filter (· ≠ name) }
  | seen, .write (.saveDeployment _), .ok _ => { seen with saved := true }
  | seen, _, _ => seen

/-- Removals work, everything else may fail. -/
abbrev Watched : Behaviour Effects (World × Seen) := (removing.observed observe).can

def Aside (op : Op) : Prop := op.Quiet ∧ ∀ seen answer, observe seen op answer = seen

theorem aside_external {action : External} (prepares : action.Prepares) :
    Aside (.external action) := by
  refine ⟨trivial, fun seen answer => ?_⟩
  cases action with
  | waitForHealthy container seconds => exact prepares.elim
  | _ => rfl

theorem aside_query {wanted : Query} (notRow : ∀ id, wanted ≠ .deployment id) :
    Aside (.query wanted) := by
  refine ⟨?_, fun seen answer => rfl⟩
  cases wanted with
  | deployment id => exact absurd rfl (notRow id)
  | _ => trivial

def newNames (start after : World) : List String :=
  (after.containers.filter fun container => start.nextSerial ≤ container.serial).map (·.name)

section Names

variable {start before after : World}

theorem new_names_set_running (selected : Containr.Container → Bool) (value : Bool) :
    newNames start { before with containers := setRunning selected value before.containers } =
      newNames start before := by
  unfold newNames setRunning
  dsimp only
  rw [List.filter_map, List.map_map]
  have sameNumber : ((fun container => decide (start.nextSerial ≤ container.serial)) ∘
      fun container => if selected container then { container with running := value } else
        container) =
        fun container : Containr.Container => decide (start.nextSerial ≤ container.serial) := by
    funext container
    dsimp only [Function.comp]
    split
    · rfl
    · rfl
  rw [sameNumber]
  apply List.map_congr_left
  intro container _
  dsimp only [Function.comp]
  split
  · rfl
  · rfl

theorem new_names_create {name : String} {body : ContainerBody}
    (later : start.nextSerial ≤ before.nextSerial) :
    newNames start { before with
      containers := before.containers ++ [⟨before.nextSerial, name, body, false⟩]
      nextSerial := before.nextSerial + 1 } = newNames start before ++ [name] := by
  unfold newNames
  dsimp only
  rw [List.filter_append, List.map_append, List.filter_singleton]
  have counted : decide (start.nextSerial ≤ before.nextSerial) = true := by simpa using later
  dsimp only
  rw [counted]
  rfl

theorem new_names_remove {name : String} {answer : Except String Unit}
    (possible : removing.can (.docker (.removeContainer name)) before answer after) :
    newNames start after = (newNames start before).filter (· ≠ name) ∧
      after.nextSerial = before.nextSerial ∧ after.db = before.db := by
  have environment : Environment removing.can := environment_where fun _ fault _ allowed =>
    Option.isNone_iff_eq_none.mp allowed
  have filtered : newNames start { before with
      containers := before.containers.filter (·.name ≠ name) } =
        (newNames start before).filter (· ≠ name) := by
    unfold newNames
    dsimp only
    rw [List.filter_map, List.filter_filter, List.filter_filter]
    apply congrArg
    apply List.filter_congr
    intro container _
    exact Bool.and_comm _ _
  rcases possible_remove (environment.sound _ _ _ _ possible) with same | removed
  · have absent : before.hasContainer name = false := by
      cases present : before.hasContainer name with
      | false => rfl
      | true => exact absurd same (environment.removes name before answer after possible present)
    have none : ∀ other ∈ newNames start before, other ≠ name := by
      intro other member isName
      obtain ⟨container, isNew, named⟩ := List.mem_map.mp member
      have present := (has_container_iff before name).mpr
        ⟨container, (List.mem_filter.mp isNew).1, named.trans isName⟩
      rw [absent] at present
      cases present
    rw [same]
    refine ⟨?_, rfl, rfl⟩
    symm
    apply List.filter_eq_self.mpr
    intro other member
    simpa using none other member
  · rw [removed]
    exact ⟨filtered, rfl, rfl⟩

end Names

def Records (db : Database) (id : Uuid) (name : String) : Prop :=
  ∃ row ∈ db.rowsOf id, row.containerId = some name

/-- The new containers are those that were seen to be left, but for some of them that a
record at the start names; `extra` ones are in the middle of a call. -/
structure Accounted (start : World) (id : Uuid) (known extra : String → Prop)
    (state : World × Seen) : Prop where
  later : start.nextSerial ≤ state.1.nextSerial
  left : ∀ name ∈ state.2.left, name ∈ newNames start state.1 ∨ Records start.db id name
  only : ∀ name ∈ newNames start state.1, name ∈ state.2.left ∨ extra name
  known : ∀ name ∈ state.2.left, known name
  stored : state.2.saved = false → state.1.db.serviceDeployments = start.db.serviceDeployments

/-- Nothing else is left. -/
abbrev Whole (start : World) (id : Uuid) (known : String → Prop) (state : World × Seen) : Prop :=
  Accounted start id known (fun _ => False) state

section Accounted

variable {start : World} {id : Uuid} {known extra : String → Prop} {state : World × Seen}

theorem Accounted.mono {more other : String → Prop} (held : Accounted start id known extra state)
    (grow : ∀ name, known name → more name) (also : ∀ name, extra name → other name) :
    Accounted start id more other state where
  later := held.later
  left := held.left
  only name member := (held.only name member).imp_right (also name)
  known name member := grow name (held.known name member)
  stored := held.stored

theorem Accounted.same {after : World × Seen} (held : Accounted start id known extra state)
    (names : newNames start after.1 = newNames start state.1)
    (serial : after.1.nextSerial = state.1.nextSerial) (seen : after.2 = state.2)
    (rows : after.1.db.serviceDeployments = state.1.db.serviceDeployments) :
    Accounted start id known extra after := by
  constructor
  · rw [serial]
    exact held.later
  · rw [seen, names]
    exact held.left
  · rw [seen, names]
    exact held.only
  · rw [seen]
    exact held.known
  · rw [seen, rows]
    exact held.stored

theorem watched_possible {op : Op} {before after : World × Seen} {answer : op.Answer}
    (watched : Watched op before answer after) :
    Possible op before.1 answer after.1 ∧ after.2 = observe before.2 op answer := by
  obtain ⟨possible, seen⟩ := observed_iff.mp watched
  exact ⟨where_possible possible, seen⟩

theorem aside_accounted {Value : Type} {program : Sys Value} (aside : program.Calls Aside)
    (held : Accounted start id known extra state) :
    program.Ensures Watched (fun _ after => Accounted start id known extra after ∧
      after.2 = state.2) state := by
  have kept : program.Always Watched (fun _ op => Aside op)
      (fun _ after => Accounted start id known extra after ∧ after.2 = state.2) state := by
    apply aside.always
    · intro op before answer after isAside holds watched
      obtain ⟨possible, seen⟩ := watched_possible watched
      have quietly := quiet_step isAside.1 possible
      have unseen : after.2 = before.2 := seen.trans (isAside.2 before.2 answer)
      refine ⟨holds.1.same ?_ quietly.serial unseen quietly.recordless.table, unseen.trans holds.2⟩
      unfold newNames
      rw [quietly.containers]
    · exact ⟨held, rfl⟩
  exact kept.restrict (fun _ _ _ _ possible => possible) fun _ _ _ => trivial

theorem stop_container_accounted (name : String) (held : Accounted start id known extra state) :
    (stopContainer name).Ensures Watched
      (fun _ after => Accounted start id known extra after ∧ after.2 = state.2) state := by
  apply ignore_always.mpr
  apply always_op trivial
  intro answer after watched
  obtain ⟨possible, seen⟩ := watched_possible watched
  rcases possible_stop possible with same | stopped
  · exact ⟨held.same (by rw [same]) (by rw [same]) seen (by rw [same]), seen⟩
  · refine ⟨held.same ?_ (by rw [stopped]) seen (by rw [stopped]), seen⟩
    rw [stopped]
    exact new_names_set_running _ _

/-- A container that was not left, or that a record names, can be removed. -/
theorem remove_request_accounted (name : String) (held : Accounted start id known extra state)
    (spared : name ∈ state.2.left → Records start.db id name) :
    (ignore (docker (.removeContainer name))).Ensures Watched (fun _ after =>
      Accounted start id known (fun other => extra other ∧ other ≠ name) after ∧
        after.2 = state.2) state := by
  apply ignore_always.mpr
  apply always_op trivial
  intro answer after watched
  obtain ⟨possible, seen⟩ := observed_iff.mp watched
  obtain ⟨names, serial, db⟩ := @new_names_remove start _ _ _ _ possible
  have unseen : after.2 = state.2 := seen
  refine ⟨⟨?_, ?_, ?_, ?_, ?_⟩, unseen⟩
  · rw [serial]
    exact held.later
  · intro other member
    rw [unseen] at member
    by_cases isName : other = name
    · exact Or.inr (isName ▸ spared (isName ▸ member))
    · rw [names]
      exact (held.left other member).imp_left fun present =>
        List.mem_filter.mpr ⟨present, by simpa using isName⟩
  · intro other member
    rw [names] at member
    obtain ⟨present, different⟩ := List.mem_filter.mp member
    rw [unseen]
    exact (held.only other present).imp_right fun isExtra => ⟨isExtra, by simpa using different⟩
  · rw [unseen]
    exact held.known
  · rw [unseen, db]
    exact held.stored

theorem remove_container_accounted (name : String) (held : Accounted start id known extra state)
    (spared : name ∈ state.2.left → Records start.db id name) :
    (removeContainer name).Ensures Watched (fun _ after =>
      Accounted start id known (fun other => extra other ∧ other ≠ name) after ∧
        after.2 = state.2) state := by
  unfold removeContainer
  apply (stop_container_accounted name held).bind
  intro _ stopped still
  obtain ⟨still, seen⟩ := still
  apply (remove_request_accounted name still (by rw [seen]; exact spared)).mono
  intro _ removed gone
  exact ⟨gone.1, gone.2.trans seen⟩

theorem Accounted.helper {name : String} {body : ContainerBody}
    (held : Accounted start id known extra state) :
    Accounted start id known (fun other => extra other ∨ other = name) ({ state.1 with
      containers := state.1.containers ++ [⟨state.1.nextSerial, name, body, false⟩]
      nextSerial := state.1.nextSerial + 1 }, state.2) := by
  have names := @new_names_create start state.1 name body held.later
  refine ⟨Nat.le_succ_of_le held.later, ?_, ?_, held.known, held.stored⟩
  · intro other member
    rw [names]
    exact (held.left other member).imp_left fun present => List.mem_append_left _ present
  · intro other member
    rw [names] at member
    rcases List.mem_append.mp member with old | new
    · exact (held.only other old).imp_right Or.inl
    · exact Or.inr (Or.inr (List.mem_singleton.mp new))

theorem Accounted.replica {name : String} {body : ContainerBody}
    (held : Accounted start id known extra state) :
    Accounted start id (fun other => known other ∨ other = name) extra ({ state.1 with
      containers := state.1.containers ++ [⟨state.1.nextSerial, name, body, false⟩]
      nextSerial := state.1.nextSerial + 1 },
      { state.2 with left := state.2.left ++ [name] }) := by
  have names := @new_names_create start state.1 name body held.later
  refine ⟨Nat.le_succ_of_le held.later, ?_, ?_, ?_, held.stored⟩
  · intro other member
    rw [names]
    rcases List.mem_append.mp member with old | new
    · exact (held.left other old).imp_left fun present => List.mem_append_left _ present
    · exact Or.inl (List.mem_append_right _ new)
  · intro other member
    rw [names] at member
    rcases List.mem_append.mp member with old | new
    · exact (held.only other old).imp_left fun seen => List.mem_append_left _ seen
    · exact Or.inl (List.mem_append_right _ new)
  · intro other member
    rcases List.mem_append.mp member with old | new
    · exact Or.inl (held.known other old)
    · exact Or.inr (List.mem_singleton.mp new)

theorem Accounted.unhealthy (held : Accounted start id known extra state) (name : String) :
    Accounted start id known (fun other => extra other ∨ other = name)
      (state.1, { state.2 with left := state.2.left.filter (· ≠ name) }) := by
  refine ⟨held.later, ?_, ?_, ?_, held.stored⟩
  · intro other member
    exact held.left other (List.mem_of_mem_filter member)
  · intro other member
    by_cases isName : other = name
    · exact Or.inr (Or.inr isName)
    · rcases held.only other member with seen | isExtra
      · exact Or.inl (List.mem_filter.mpr ⟨seen, by simpa using isName⟩)
      · exact Or.inr (Or.inl isExtra)
  · intro other member
    exact held.known other (List.mem_of_mem_filter member)

theorem external_accounted (action : External) (prepares : action.Prepares)
    (held : Accounted start id known extra state) : (external action).Ensures Watched
      (fun _ after => Accounted start id known extra after) state :=
  (aside_accounted (op_calls (aside_external prepares)) held).mono fun _ _ still => still.1

/-- The helper container is created and taken away again. -/
theorem copy_seed_accounted {helper : String} (image target archive source : String)
    (unknown : ¬known helper) (held : Whole start id known state) :
    (copySeed helper image target archive source).run.Ensures Watched
      (fun _ => Whole start id known) state := by
  have spared : ∀ {after : World × Seen} {also : String → Prop},
      Accounted start id known also after → helper ∈ after.2.left →
        Records start.db id helper :=
    fun holds member => absurd (holds.known helper member) unknown
  unfold copySeed
  apply (remove_request_accounted helper held (spared held)).run_lift_bind
  intro _ cleared gone
  have free : Whole start id known cleared :=
    gone.1.mono (fun _ same => same) fun _ absurd => absurd.1
  apply always_run_bind.mpr
  apply always_op trivial
  intro answer created watched
  obtain ⟨possible, seen⟩ := watched_possible watched
  rcases possible_create possible with ⟨same, message, refused⟩ | ⟨-, isNew, made⟩
  · have unseen : created.2 = cleared.2 := by
      rw [seen, refused]
      rfl
    rw [refused]
    exact free.same (by rw [same]) (by rw [same]) unseen (by rw [same])
  have unseen : created.2 = cleared.2 := by
    rw [seen, isNew]
    rfl
  have helped : Accounted start id known (· = helper) created := by
    have shape : created = (created.1, created.2) := rfl
    rw [shape, made, unseen]
    exact free.helper.mono (fun _ same => same) fun _ isHelper => isHelper.resolve_left not_false
  rw [isNew]
  apply (external_accounted (.downloadPath helper target archive) trivial helped).run_lift_bind
  intro downloaded _ kept
  apply (remove_request_accounted helper kept (spared kept)).run_lift_bind
  intro _ after removed
  have clear : Whole start id known after :=
    removed.1.mono (fun _ same => same) fun _ both => both.2 both.1
  have cleans : (ignore (ExceptT.mk (external (.removeFile archive)))).Calls Aside :=
    ignore_calls (op_calls (aside_external trivial))
  rcases downloaded with message | found
  · apply (aside_accounted cleans clear).run_lift_bind
    intro _ _ still
    exact always_run_throw.mpr still.1
  · cases found with
    | true =>
        apply (external_accounted (.unpackSeedArchive archive source) trivial clear).run_lift_bind
        intro unpacked _ kept
        apply (aside_accounted cleans kept).run_lift_bind
        intro _ _ still
        exact always_pure.mpr still.1
    | false =>
        apply (aside_accounted cleans clear).run_lift_bind
        intro _ _ still
        exact always_run_pure.mpr still.1

theorem seed_bind_mount_accounted {containerId : String} (image : String)
    (mount : DockerBindMount) (unknown : ¬known (seedHelperName containerId))
    (held : Whole start id known state) :
    (seedBindMount containerId image mount).Ensures Watched
      (fun _ => Whole start id known) state := by
  apply ignore_always.mpr
  unfold trySeedBindMount
  dsimp only
  split
  · exact always_run_pure.mpr held
  · apply (external_accounted (.dirIsEmpty mount.source) trivial held).run_bind
    intro isEmpty _ kept
    rcases isEmpty with message | isEmpty
    · exact kept
    dsimp only
    split
    · exact always_run_pure.mpr kept
    · split
      · exact always_run_pure.mpr kept
      · exact copy_seed_accounted _ _ _ _ unknown kept

/-- Whether it succeeds or not, what `create_container` makes is seen. -/
theorem create_container_accounted (config : DockerContainerConfig)
    (unknown : ¬known (seedHelperName config.id))
    (held : Whole start id known state) :
    (createContainer config).run.Ensures Watched (fun _ after =>
      Whole start id (fun name => known name ∨ name = config.id) after)
        state := by
  unfold createContainer createContainerAs
  apply always_run_lift_bind.mpr
  have seeded : (forAll (seedBindMount config.id config.image)
      (config.mounts.filter (·.seedFromImage))).Ensures Watched
        (fun _ => Whole start id known) state := by
    apply always_for_all (fun _ => Whole start id known) _ []
    · exact held
    · exact fun _ kept => kept
    · intro _ mount _ _ _ kept
      exact seed_bind_mount_accounted config.image mount unknown kept
  apply seeded.mono
  intro _ ready kept
  apply always_run_bind.mpr
  apply always_op trivial
  intro answer created watched
  obtain ⟨possible, seen⟩ := watched_possible watched
  have grown := kept.mono (fun name isKnown => Or.inl isKnown : ∀ name, known name →
    known name ∨ name = config.id) fun _ absurd => absurd
  rcases possible_create possible with ⟨same, message, refused⟩ | ⟨-, isNew, made⟩
  · have unseen : created.2 = ready.2 := by
      rw [seen, refused]
      rfl
    rw [refused]
    exact grown.same (by rw [same]) (by rw [same]) unseen (by rw [same])
  have counted : created.2 = { ready.2 with left := ready.2.left ++ [config.id] } := by
    rw [seen, isNew]
    rfl
  have createdHeld : Whole start id (fun name => known name ∨ name = config.id) created := by
    have shape : created = (created.1, created.2) := rfl
    rw [shape, made, counted]
    exact kept.replica
  rw [isNew]
  apply always_run_bind.mpr
  have connects : (connectNetworks ready.1.nextSerial config.additionalNetworks).run.Calls Aside :=
    calls_for_each _ fun network _ => op_calls (aside_external trivial)
  apply (aside_accounted connects createdHeld).mono
  intro connected next still
  rcases connected with message | _
  · exact still.1
  apply always_run_bind.mpr
  apply always_op trivial
  intro answer started watched
  obtain ⟨possible, seen⟩ := watched_possible watched
  have startedHeld : Whole start id (fun name => known name ∨ name = config.id) started := by
    rcases possible_start possible with ⟨same, -⟩ | ⟨-, runs⟩
    · exact still.1.same (by rw [same]) (by rw [same]) seen (by rw [same])
    · refine still.1.same ?_ (by rw [runs]) seen (by rw [runs])
      rw [runs]
      exact new_names_set_running _ _
  cases answer with
  | ok _ => exact always_run_pure.mpr startedHeld
  | error message => exact startedHeld

/-- An unhealthy container is taken away, one that could not be waited for stays. -/
theorem require_healthy_accounted (service : ContainerService) (replica : Nat) (name : String)
    (held : Whole start id known state) :
    (requireHealthy service replica name).run.Ensures Watched
      (fun _ => Whole start id known) state := by
  unfold requireHealthy
  split
  · apply always_run_bind.mpr
    apply always_op trivial
    intro answer after watched
    obtain ⟨possible, seen⟩ := watched_possible watched
    obtain ⟨reply, -, result⟩ := possible
    have unchanged : after.1 = state.1 := (congrArg Prod.snd result).symm
    have shape : after = (after.1, after.2) := rfl
    rcases answer with message | healthy
    · exact held.same (by rw [unchanged]) (by rw [unchanged]) seen (by rw [unchanged])
    cases healthy with
    | true =>
        apply always_run_pure.mpr
        exact held.same (by rw [unchanged]) (by rw [unchanged]) seen (by rw [unchanged])
    | false =>
        have dropped : Accounted start id known (fun other => False ∨ other = name) after := by
          have seen_ : after.2 = { state.2 with left := state.2.left.filter (· ≠ name) } := seen
          rw [shape, unchanged, seen_]
          exact held.unhealthy name
        have absent : name ∈ after.2.left → Records start.db id name := by
          intro member
          rw [seen] at member
          have different := (List.mem_filter.mp member).2
          simp at different
        apply (stop_container_accounted name dropped).run_lift_bind
        intro _ stopped still
        apply (remove_container_accounted name still.1 (by rw [still.2]; exact absent)).run_lift_bind
        intro _ removed gone
        apply always_run_throw.mpr
        exact gone.1.mono (fun _ same => same) fun _ both => both.2 (both.1.resolve_left not_false)
  · exact always_run_pure.mpr held

end Accounted

def ReplicaNames (app : App) (service : ContainerService) (id : Uuid) (replicas : List Nat)
    (name : String) : Prop :=
  ∃ replica ∈ replicas, name = containerName app service replica id

/-- The containers above the wanted number of replicas are those the records named before. -/
def SurplusRecorded (start : World) (id : Uuid) (service : ContainerService)
    (deployment : Deployment) : Prop :=
  ∀ row ∈ deployment.serviceDeployments, surplusRow service row = true →
    ∀ name, row.containerId = some name → Records start.db id name

section Rounds

variable {start : World} {id : Uuid} {state : World × Seen} {app : App}
  {service : ContainerService} {done : List Nat} {deployment : Deployment} (action : String)
  (runtime : Runtime)

theorem start_service_replica_accounted (image : String) {replica : Nat} (new : replica ∉ done)
    (held : Whole start id (ReplicaNames app service deployment.id done) state) :
    (startServiceReplica runtime app service deployment image replica).run.Ensures Watched
      (fun _ after => Whole start id
        (ReplicaNames app service deployment.id (done ++ [replica])) after)
      state := by
  have grow : ∀ name, ReplicaNames app service deployment.id done name →
      ReplicaNames app service deployment.id (done ++ [replica]) name := by
    intro name isKnown
    obtain ⟨other, member, named⟩ := isKnown
    exact ⟨other, List.mem_append_left _ member, named⟩
  have nothing : ∀ {after : World × Seen}, Whole start id
      (ReplicaNames app service deployment.id done) after →
        Whole start id (ReplicaNames app service deployment.id (done ++ [replica])) after :=
    fun holds => holds.mono grow fun _ absurd => absurd
  have fresh : ¬ReplicaNames app service deployment.id done
      (replicaContainerName app service deployment replica) := by
    intro isKnown
    obtain ⟨other, member, named⟩ := isKnown
    rw [replica_container_name_eq] at named
    exact new (container_name_inj named ▸ member)
  have helper : ¬ReplicaNames app service deployment.id done
      (seedHelperName (replicaContainerName app service deployment replica)) := by
    intro isKnown
    obtain ⟨other, -, named⟩ := isKnown
    exact seed_helper_ne_name app service other deployment.id _ named
  unfold startServiceReplica
  apply (external_accounted (.createNetwork app.networkName) trivial held).run_bind
  intro created made kept
  rcases created with message | _
  · exact nothing kept
  apply (stop_container_accounted _ kept).run_lift_bind
  intro _ stopped still
  apply (remove_container_accounted _ still.1 fun member =>
    absurd (still.1.known _ member) fresh).run_lift_bind
  intro _ removed gone
  have clear : Whole start id (ReplicaNames app service deployment.id done) removed :=
    gone.1.mono (fun _ same => same) fun _ absurd => absurd.1
  have pulls : (pullReplicaImage runtime app service image).run.Calls Aside := by
    unfold pullReplicaImage
    split
    · apply Calls.run_bind
      · apply resolve_registry_credentials_calls
        intro owner
        exact aside_query (by simp)
      intro credentials
      exact op_calls (aside_external trivial)
    · exact calls_run_pure _
  apply (aside_accounted pulls clear).run_bind
  intro pulled ready kept
  rcases pulled with message | _
  · exact nothing kept.1
  apply (aside_accounted (build_service_mounts_calls (fun _ prepares => aside_external prepares)
    runtime.workDir app.id service) kept.1).run_bind
  intro built mounted kept
  rcases built with message | mounts
  · exact nothing kept.1
  apply (create_container_accounted _ helper kept.1).run_bind
  intro result after placed
  have named : Whole start id
      (ReplicaNames app service deployment.id (done ++ [replica])) after := by
    apply placed.mono
    · intro name isKnown
      rcases isKnown with old | own
      · exact grow name old
      · refine ⟨replica, List.mem_append_right _ (List.mem_singleton_self _), ?_⟩
        rw [own]
        exact replica_container_name_eq app service deployment replica
    · exact fun _ absurd => absurd
  rcases result with message | _
  · exact named
  apply (require_healthy_accounted service replica _ named).run_bind
  intro healthy final kept
  rcases healthy with message | _
  · exact kept
  · exact always_run_pure.mpr kept

theorem surplus_recorded_started {replica index : Nat}
    (surplus : SurplusRecorded start id service deployment)
    (wanted : replica < desiredReplicas service)
    (place : ∀ row, deployment.serviceDeployments[index]? = some row →
      ofReplica service.id replica row = true) (image container : String) (now : Time) :
    SurplusRecorded start id service { deployment with
      serviceDeployments :=
        deployment.serviceDeployments.modify index (startedRow image container now) } := by
  intro row member isSurplus name named
  obtain ⟨position, found⟩ := List.mem_iff_getElem?.mp member
  rw [List.getElem?_modify] at found
  obtain ⟨old, stored, same⟩ := Option.map_eq_some_iff.mp found
  split_ifs at same with here
  · have own := place old (here ▸ stored)
    have number : old.replicaIndex = replica := of_decide_eq_true (Bool.and_eq_true_iff.mp own).2
    rw [← same] at isSurplus
    have above : desiredReplicas service ≤ old.replicaIndex :=
      of_decide_eq_true (Bool.and_eq_true_iff.mp isSurplus).2
    omega
  · have unchanged : old = row := same
    rw [← unchanged] at isSurplus named
    exact surplus old (List.mem_of_getElem? stored) isSurplus name named

theorem start_replica_at_accounted {replica index : Nat} (new : replica ∉ done)
    (wanted : replica < desiredReplicas service)
    (place : ∀ row, deployment.serviceDeployments[index]? = some row →
      ofReplica service.id replica row = true)
    (surplus : SurplusRecorded start id service deployment)
    (held : Whole start id (ReplicaNames app service deployment.id done) state) :
    (startReplicaAt action runtime app service replica deployment index).run.Ensures Watched
      (fun outcome after => Whole start id
        (ReplicaNames app service deployment.id (done ++ [replica])) after ∧
          OnOk (fun result : Deployment × Bool => result.1.id = deployment.id ∧
            SurplusRecorded start id service result.1) outcome) state := by
  have nothing : Whole start id
      (ReplicaNames app service deployment.id (done ++ [replica])) state := by
    apply held.mono
    · intro name isKnown
      obtain ⟨other, member, named⟩ := isKnown
      exact ⟨other, List.mem_append_left _ member, named⟩
    · exact fun _ absurd => absurd
  unfold startReplicaAt
  split
  · exact always_run_pure.mpr ⟨nothing, rfl, surplus⟩
  · split
    · rename_i image _
      apply always_run_bind.mpr
      apply always_bind.mpr
      apply (start_service_replica_accounted runtime image new held).mono
      intro started after kept
      apply always_pure.mpr
      rcases started with message | container
      · exact ⟨kept, trivial⟩
      · have clock : utcNow.Calls Aside := op_calls ⟨trivial, fun _ _ => rfl⟩
        apply (aside_accounted clock kept).run_lift_bind
        intro now _ still
        exact always_run_pure.mpr
          ⟨still.1, rfl, surplus_recorded_started surplus wanted place image container now⟩
    · exact always_run_throw.mpr ⟨nothing, trivial⟩

theorem ensure_replica_accounted {replica : Nat} (new : replica ∉ done)
    (wanted : replica < desiredReplicas service)
    (surplus : SurplusRecorded start id service deployment)
    (held : Whole start id (ReplicaNames app service deployment.id done) state) :
      (ensureReplica action runtime app service deployment replica).run.Ensures Watched
      (fun outcome after => Whole start id
        (ReplicaNames app service deployment.id (done ++ [replica])) after ∧
          OnOk (fun result : Deployment × Bool => result.1.id = deployment.id ∧
            SurplusRecorded start id service result.1) outcome) state := by
  have found : (ensureServiceDeploymentIndex deployment service.id replica).Ensures Watched
      (fun found after => Whole start id (ReplicaNames app service deployment.id done) after ∧
        found.1.id = deployment.id ∧
          SurplusRecorded start id service found.1 ∧
            ∀ row, found.1.serviceDeployments[found.2]? = some row →
              ofReplica service.id replica row = true) state := by
    unfold ensureServiceDeploymentIndex
    split
    · rename_i index found
      obtain ⟨inRange, matched, -⟩ := List.findIdx?_eq_some_iff_getElem.mp found
      refine always_pure.mpr ⟨held, rfl, surplus, fun row stored => ?_⟩
      rw [List.getElem?_eq_getElem inRange] at stored
      rw [← Option.some.inj stored]
      exact matched
    · have draws : newUuid.Calls Aside := op_calls ⟨trivial, fun _ _ => rfl⟩
      have reads : utcNow.Calls Aside := op_calls ⟨trivial, fun _ _ => rfl⟩
      apply (aside_accounted draws held).bind
      intro rowId _ kept
      apply (aside_accounted reads kept.1).bind
      intro now _ kept
      refine always_pure.mpr ⟨kept.1, rfl, ?_, ?_⟩
      · intro row member isSurplus name named
        rcases List.mem_append.mp member with old | appended
        · exact surplus row old isSurplus name named
        · rw [List.mem_singleton.mp appended] at named
          cases named
      · intro row stored
        rw [List.getElem?_append_right (Nat.le_refl _), Nat.sub_self] at stored
        rw [← Option.some.inj stored]
        simp [ofReplica, ServiceDeployment.new]
  unfold ensureReplica
  apply found.run_lift_bind
  intro place after kept
  obtain ⟨ensured, index⟩ := place
  obtain ⟨kept, sameId, surplusKept, place⟩ := kept
  have same : ensured.id = deployment.id := sameId
  rw [← same] at kept ⊢
  exact start_replica_at_accounted action runtime new wanted place surplusKept kept

theorem ensure_replicas_accounted {replicas : List Nat} (distinct : (done ++ replicas).Nodup)
    (wanted : ∀ replica ∈ replicas, replica < desiredReplicas service)
    (surplus : SurplusRecorded start id service deployment)
    (held : Whole start id (ReplicaNames app service deployment.id done) state) :
      (ensureReplicas action runtime app service replicas deployment).run.Ensures Watched
      (fun outcome after => (∃ known, Whole start id known after) ∧
          OnOk (fun result : Deployment × Bool => result.1.id = deployment.id ∧
            SurplusRecorded start id service result.1) outcome) state := by
  induction replicas generalizing done deployment state with
  | nil => exact always_run_pure.mpr ⟨⟨_, held⟩, rfl, surplus⟩
  | cons replica replicas ih =>
      have split : (done ++ [replica]) ++ replicas = done ++ replica :: replicas := by simp
      have new : replica ∉ done := by
        intro member
        exact (List.nodup_append.mp distinct).2.2 replica member replica List.mem_cons_self rfl
      unfold ensureReplicas
      apply (ensure_replica_accounted action runtime new (wanted replica List.mem_cons_self)
        surplus held).run_bind
      intro ensured after kept
      obtain ⟨kept, result⟩ := kept
      rcases ensured with error | ⟨ensured, started⟩
      · exact ⟨⟨_, kept⟩, trivial⟩
      obtain ⟨sameId, surplusKept⟩ := result
      have same : ensured.id = deployment.id := sameId
      rw [← same] at kept
      apply (ih (by rw [split]; exact distinct)
        (fun other member => wanted other (List.mem_cons_of_mem _ member)) surplusKept kept).run_bind
      intro rest final kept
      obtain ⟨kept, result⟩ := kept
      rcases rest with error | ⟨last, others⟩
      · exact ⟨kept, trivial⟩
      · obtain ⟨sameLast, surplusLast⟩ := result
        have lastId : last.id = ensured.id := sameLast
        exact always_run_pure.mpr ⟨kept, lastId.trans same, surplusLast⟩

end Rounds

section Operations

variable {start : World} {id : Uuid} {known : String → Prop} {state : World × Seen}
  {service : ContainerService}

theorem stop_surplus_rows_accounted {rows : List ServiceDeployment}
    (recorded : ∀ row ∈ rows, surplusRow service row = true →
      ∀ name, row.containerId = some name → Records start.db id name)
    (held : Whole start id known state) :
    (stopSurplusRows service rows).Ensures Watched
      (fun _ => Whole start id known) state := by
  have stops : ∀ {before : World × Seen} {name : String}, Records start.db id name →
      Whole start id known before →
        (stopServiceReplica name).Ensures Watched
          (fun _ => Whole start id known) before := by
    intro before name isRecorded holds
    unfold stopServiceReplica
    apply (stop_container_accounted name holds).bind
    intro _ stopped still
    apply (remove_container_accounted name still.1 fun _ => isRecorded).mono
    intro _ removed gone
    exact gone.1.mono (fun _ same => same) fun _ absurd => absurd.1
  have reads : utcNow.Calls Aside := op_calls ⟨trivial, fun _ _ => rfl⟩
  induction rows generalizing state with
  | nil => exact always_pure.mpr held
  | cons row rest ih =>
      have first : (stopSurplusRow service row).Ensures Watched
          (fun _ => Whole start id known) state := by
        unfold stopSurplusRow
        split
        · rename_i isSurplus
          unfold stopServiceRow
          split
          · have stopped : (forAll stopServiceReplica row.containerId.toList).Ensures Watched
                (fun _ => Whole start id known) state := by
              cases container : row.containerId with
              | none => exact always_pure.mpr held
              | some name =>
                  apply (stops (recorded row List.mem_cons_self isSurplus name container) held).bind
                  exact fun _ _ kept => always_pure.mpr kept
            apply stopped.bind
            intro _ after kept
            apply (aside_accounted reads kept).bind
            exact fun _ _ still => always_pure.mpr still.1
          · exact always_pure.mpr held
        · exact always_pure.mpr held
      unfold stopSurplusRows
      apply first.bind
      intro _ after kept
      apply (ih (fun other member => recorded other (List.mem_cons_of_mem _ member)) kept).bind
      exact fun _ _ still => always_pure.mpr still

theorem saved_ensures {Value : Type} (program : Sys Value) (saved : state.2.saved = true) :
    program.Ensures Watched (fun _ after => after.2.saved = true) state := by
  have kept : program.Always Watched (fun before _ => before.2.saved = true)
      (fun _ after => after.2.saved = true) state := by
    apply always_of_step
    · intro op before answer after holds watched
      obtain ⟨-, seen⟩ := watched_possible watched
      rw [seen]
      unfold observe
      split
      · exact holds
      · exact holds
      · rfl
      · exact holds
    · exact saved
  exact kept.restrict (fun _ _ _ _ possible => possible) fun _ _ _ => trivial

def FailsAccounted (start : World) (id : Uuid) (outcome : Except ApiError Unit)
    (after : World × Seen) : Prop :=
  ∀ error, outcome = .error error → after.2.saved = false →
    ∃ known, Whole start id known after

variable {outcome : Except ApiError Unit} {after : World × Seen}

theorem fails_saved (saved : after.2.saved = true) : FailsAccounted start id outcome after := by
  intro _ _ unsaved
  rw [saved] at unsaved
  cases unsaved

theorem fails_accounted (held : Whole start id known after) :
    FailsAccounted start id outcome after := fun _ _ _ => ⟨known, held⟩

/-- What follows a successful save has been saved, what follows a failed one is as before. -/
theorem persist_accounted (deployment : Deployment) {program : Handler Unit}
    (held : Whole start id known state) :
    (persistDeployment deployment >>= fun _ => program).run.Ensures Watched
      (FailsAccounted start id) state := by
  have saves : (orInternal (Store.saveDeployment deployment)).run.Ensures Watched
      (fun outcome after => (outcome = .ok () → after.2.saved = true) ∧
        ∀ error, outcome = .error error → Whole start id known after)
      state := by
    apply or_internal_always.mpr
    apply always_op trivial
    intro answer after watched
    obtain ⟨possible, seen⟩ := watched_possible watched
    rcases possible_write possible with ⟨isOk, -⟩ | ⟨same, message, failed⟩
    · rw [isOk] at seen ⊢
      exact ⟨fun _ => by rw [seen]; rfl, nofun⟩
    · rw [failed] at seen ⊢
      exact ⟨nofun, fun _ _ => held.same (by rw [same]) (by rw [same]) seen (by rw [same])⟩
  unfold persistDeployment
  rw [LawfulMonad.bind_assoc]
  apply saves.run_bind
  intro outcome after saved
  cases outcome with
  | error error => exact fails_accounted (saved.2 error rfl)
  | ok _ => exact (saved_ensures _ (saved.1 rfl)).mono fun _ _ still => fails_saved still

theorem started_at_accounted (deployment : Deployment)
    (held : Whole start id known state) :
    (startedAtOrNow deployment).Ensures Watched
      (fun _ => Whole start id known) state := by
  unfold startedAtOrNow
  split
  · exact always_pure.mpr held
  · have reads : utcNow.Calls Aside := op_calls ⟨trivial, fun _ _ => rfl⟩
    exact (aside_accounted reads held).mono fun _ _ still => still.1

theorem manager_accounted (held : Whole start id known state) :
    (orInternal (ExceptT.mk (external .serviceManager))).run.Ensures Watched
      (fun _ => Whole start id known) state := by
  apply or_internal_always.mpr
  apply (external_accounted .serviceManager trivial held).mono
  intro outcome after still
  cases outcome with
  | ok _ => exact still
  | error _ => exact still

variable {app : App} {picked : Deployment}

/-- What both operations begin with. -/
theorem rounds_accounted (action : String) (runtime : Runtime)
    (recorded : SurplusRecorded start picked.id service picked)
    (held : Whole start picked.id (fun _ => False) state) :
    (ensureReplicas action runtime app service (List.range (desiredReplicas service))
      picked).run.Ensures Watched (fun outcome after =>
        (∃ known, Whole start picked.id known after) ∧
          OnOk (fun result : Deployment × Bool => result.1.id = picked.id ∧
            SurplusRecorded start picked.id service result.1) outcome) state := by
  have none : Whole start picked.id (ReplicaNames app service picked.id []) state :=
    held.mono (fun _ absurd => absurd.elim) fun _ absurd => absurd
  exact ensure_replicas_accounted action runtime (by simpa using List.nodup_range)
    (fun replica member => List.mem_range.mp member) recorded none

theorem start_picked_accounted (server : Server) (runtime : Runtime)
    (recorded : SurplusRecorded start picked.id service picked)
    (held : Whole start picked.id (fun _ => False) state) :
    (startPicked server runtime app service picked).run.Ensures Watched
      (FailsAccounted start picked.id) state := by
  unfold startPicked
  apply (manager_accounted held).run_bind
  intro managed ready kept
  rcases managed with error | _
  · exact fails_accounted kept
  apply (rounds_accounted "start service" runtime recorded kept).run_bind
  intro outcome after rounds
  obtain ⟨⟨known, kept⟩, -⟩ := rounds
  rcases outcome with error | ⟨deployment, changed⟩
  · exact fails_accounted kept
  dsimp only
  split
  · apply (started_at_accounted deployment kept).run_lift_bind
    intro startedAt _ kept
    have reads : utcNow.Calls Aside := op_calls ⟨trivial, fun _ _ => rfl⟩
    apply (aside_accounted reads kept).run_lift_bind
    intro now _ kept
    exact persist_accounted _ kept.1
  · exact always_run_pure.mpr (fails_accounted kept)

theorem reconcile_picked_accounted (runtime : Runtime)
    (recorded : SurplusRecorded start picked.id service picked)
    (held : Whole start picked.id (fun _ => False) state) :
    (reconcilePicked runtime app service picked).run.Ensures Watched
      (FailsAccounted start picked.id) state := by
  unfold reconcilePicked
  apply (manager_accounted held).run_bind
  intro managed ready kept
  rcases managed with error | _
  · exact fails_accounted kept
  apply (rounds_accounted "scale service" runtime recorded kept).run_bind
  intro outcome after rounds
  obtain ⟨⟨known, kept⟩, result⟩ := rounds
  rcases outcome with error | ⟨deployment, changed⟩
  · exact fails_accounted kept
  obtain ⟨-, surplus⟩ := result
  apply (stop_surplus_rows_accounted surplus kept).run_lift_bind
  intro rows _ kept
  dsimp only
  split
  · apply (started_at_accounted _ kept).run_lift_bind
    intro startedAt _ kept
    have reads : utcNow.Calls Aside := op_calls ⟨trivial, fun _ _ => rfl⟩
    apply (aside_accounted reads kept).run_lift_bind
    intro now _ kept
    have persisted := @persist_accounted start picked.id known _ { deployment with
      serviceDeployments := rows
      status := reconciledStatus { deployment with serviceDeployments := rows } service
      startedAt := some startedAt
      finishedAt := some now } (pure ()) kept.1
    rw [bind_pure_unit] at persisted
    exact persisted
  · exact always_run_pure.mpr (fails_accounted kept)

end Operations

/-- The deployment that is picked at the start has a record, in the given store, that names
the container. -/
def Recorded (app : App) (service : ContainerService) (start : World) (db : Database)
    (name : String) : Prop :=
  ∃ picked, pickDeployment (storedDeployments start.db app.id) service = some picked ∧
    Records db picked.id name

def NoneUnrecorded (app : App) (service : ContainerService) (start after : World) : Prop :=
  ∀ container ∈ after.containers, start.nextSerial ≤ container.serial →
    Recorded app service start after.db container.name

section Failures

variable {start : World} {app : App} {service : ContainerService} {picked : Deployment}

theorem accounted_start {id : Uuid}
    (numbered : ∀ container ∈ start.containers, container.serial < start.nextSerial) :
    Whole start id (fun _ => False) (start, ⟨[], false⟩) := by
  have none : newNames start start = [] := by
    unfold newNames
    rw [List.map_eq_nil_iff, List.filter_eq_nil_iff]
    intro container member
    simpa using numbered container member
  refine ⟨Nat.le_refl _, ?_, ?_, ?_, fun _ => rfl⟩
  · exact fun _ member => absurd member List.not_mem_nil
  · rw [none]
    exact fun _ member => absurd member List.not_mem_nil
  · exact fun _ member => absurd member List.not_mem_nil

/-- The choice of the deployment reads the store and leaves everything as it is. -/
theorem resolve_accounted {id : Uuid} {known extra : String → Prop} {state : World × Seen}
    (sameDb : state.1.db = start.db) (held : Accounted start id known extra state) :
    (resolveAppServiceDeployment app service).run.Ensures Watched (fun outcome after =>
      (Accounted start id known extra after ∧ after.2 = state.2) ∧
        OnOk (fun found => found = pickDeployment (storedDeployments start.db app.id) service)
          outcome) state := by
  have aside : (resolveAppServiceDeployment app service).run.Calls Aside := by
    apply Calls.run_bind
    · apply or_internal_calls
      apply Calls.run_bind
      · exact op_calls (aside_query (by simp))
      intro rows
      exact with_service_deployments_calls (fun _ => aside_query (by simp)) rows
    · exact fun _ => calls_run_pure _
  have exact_ := exact_always (resolve_deployment_exact app service) sameDb
  have reads := exact_.restrict
    (fun _ _ _ _ can => where_possible can : ∀ op before answer after,
      removing.can op before answer after → Possible op before answer after)
    (fun _ _ _ => trivial : ∀ before op, Op.Reading op → True)
  have watched := @Always.observed _ _ _ _ removing observe _ _ _ state reads
  apply ((aside_accounted aside held).and watched).mono
  intro outcome after both
  exact ⟨both.1, both.2.1⟩

theorem pick_surplus_recorded
    (found : pickDeployment (storedDeployments start.db app.id) service = some picked) :
    SurplusRecorded start picked.id service picked := by
  obtain ⟨row, -, same⟩ := List.mem_map.mp (pick_mem found)
  have rows : picked.serviceDeployments = start.db.serviceDeploymentsOf picked.id := by
    rw [← same]
  intro record member _ name named
  rw [rows] at member
  exact ⟨record, (List.mem_insertionSort _).mp member, named⟩

variable {known : String → Prop} {state : World × Seen}

/-- With nothing extra the new containers are unrecorded exactly as far as those seen are. -/
theorem Accounted.recorded_iff (held : Whole start picked.id known state)
    (unsaved : state.2.saved = false)
    (found : pickDeployment (storedDeployments start.db app.id) service = some picked) :
    NoneUnrecorded app service start state.1 ↔
      ∀ name ∈ state.2.left, Recorded app service start start.db name := by
  have rows : state.1.db.rowsOf picked.id = start.db.rowsOf picked.id := by
    unfold Database.rowsOf
    rw [held.stored unsaved]
  have same : ∀ name, Recorded app service start state.1.db name ↔
      Recorded app service start start.db name := by
    intro name
    unfold Recorded Records
    rw [found]
    simp only [Option.some.injEq, exists_eq_left', rows]
  constructor
  · intro recorded name member
    rcases held.left name member with present | isRecorded
    · obtain ⟨container, isNew, named⟩ := List.mem_map.mp present
      obtain ⟨exists_, later⟩ := List.mem_filter.mp isNew
      rw [← named]
      exact (same _).mp (recorded container exists_ (of_decide_eq_true later))
    · exact ⟨picked, found, isRecorded⟩
  · intro recorded container member later
    have present : container.name ∈ newNames start state.1 :=
      List.mem_map_of_mem (List.mem_filter.mpr ⟨member, decide_eq_true later⟩)
    rcases held.only container.name present with seen | absurd
    · exact (same _).mpr (recorded container.name seen)
    · exact absurd.elim

theorem accounted_nothing {id : Uuid} (held : Whole start id known state)
    (nothing : state.2.left = []) : NoneUnrecorded app service start state.1 ↔
      ∀ name ∈ state.2.left, Recorded app service start start.db name := by
  rw [nothing]
  constructor
  · exact fun _ _ member => absurd member List.not_mem_nil
  · intro _ container member later
    have present : container.name ∈ newNames start state.1 :=
      List.mem_map_of_mem (List.mem_filter.mpr ⟨member, decide_eq_true later⟩)
    rcases held.only container.name present with seen | absurd
    · rw [nothing] at seen
      cases seen
    · exact absurd.elim

theorem id_of_pick (found : Option Deployment) :
    ∃ id, ∀ picked, found = some picked → picked.id = id := by
  cases found with
  | none =>
      refine ⟨⟨0⟩, fun picked same => ?_⟩
      cases same
  | some first =>
      refine ⟨first.id, fun picked same => ?_⟩
      rw [Option.some.inj same]

/-- When a start or a scaling fails before anything is saved, every container it created is
removed or recorded exactly when each replica container that docker created, and that was not
found unhealthy, has a name that the deployment recorded before. -/
theorem failures_recorded_iff (server : Server) (runtime : Runtime) {change : ReplicaChange}
    (starts : change ≠ .stop)
    (numbered : ∀ container ∈ start.containers, container.serial < start.nextSerial) :
    (perform server runtime app service change).run.Ensures Watched (fun outcome after =>
      ∀ error, outcome = .error error → after.2.saved = false →
        (NoneUnrecorded app service start after.1 ↔
          ∀ name ∈ after.2.left, Recorded app service start start.db name))
      (start, ⟨[], false⟩) := by
  obtain ⟨id, isPicked⟩ := id_of_pick (pickDeployment (storedDeployments start.db app.id) service)
  have begins : Whole start id (fun _ => False) (start, ⟨[], false⟩) :=
    accounted_start numbered
  have nothing : ∀ {after : World × Seen},
      Whole start id (fun _ => False) after → after.2 = ⟨[], false⟩ →
        (NoneUnrecorded app service start after.1 ↔
          ∀ name ∈ after.2.left, Recorded app service start start.db name) := by
    intro after held seen
    exact accounted_nothing held (by rw [seen])
  have fails : ∀ {picked : Deployment} {program : Handler Unit} {state : World × Seen},
      pickDeployment (storedDeployments start.db app.id) service = some picked →
      program.run.Ensures Watched (FailsAccounted start picked.id) state →
      program.run.Ensures Watched (fun outcome after =>
        ∀ error, outcome = .error error → after.2.saved = false →
          (NoneUnrecorded app service start after.1 ↔
            ∀ name ∈ after.2.left, Recorded app service start start.db name)) state := by
    intro picked program state found ensures
    apply ensures.mono
    intro outcome after accounted error isError unsaved
    obtain ⟨known, held⟩ := accounted error isError unsaved
    exact held.recorded_iff unsaved found
  -- the pick is read first, and until then nothing has happened
  have picks := @resolve_accounted start app service id _ _ (start, ⟨[], false⟩) rfl begins
  cases change with
  | stop => exact absurd rfl starts
  | start =>
      unfold perform startAppService
      apply always_run_bind.mpr
      cases cron : service.isCronJob with
      | true =>
          apply always_run_throw.mpr
          exact fun _ _ _ => nothing begins rfl
      | false =>
          apply always_run_pure.mpr
          apply picks.run_bind
          intro outcome after read
          obtain ⟨⟨held, seen⟩, found⟩ := read
          rcases outcome with error | picked
          · exact fun _ _ _ => nothing held seen
          rcases picked with _ | picked
          · apply always_run_throw.mpr
            exact fun _ _ _ => nothing held seen
          have isPick := (show some picked = _ from found).symm
          apply fails isPick
          apply start_picked_accounted server runtime (pick_surplus_recorded isPick)
          rw [isPicked picked isPick]
          exact held
  | scale =>
      unfold perform reconcileAppServiceReplicas
      by_cases isCron : service.isCronJob = true
      · rw [if_pos isCron]
        exact always_run_pure.mpr fun _ absurd => by cases absurd
      · rw [if_neg isCron]
        apply picks.run_bind
        intro outcome after read
        obtain ⟨⟨held, seen⟩, found⟩ := read
        rcases outcome with error | picked
        · exact fun _ _ _ => nothing held seen
        rcases picked with _ | picked
        · exact always_run_pure.mpr fun _ absurd => by cases absurd
        have isPick := (show some picked = _ from found).symm
        apply fails isPick
        apply reconcile_picked_accounted runtime (pick_surplus_recorded isPick)
        rw [isPicked picked isPick]
        exact held

end Failures

def demoScaled : ContainerService := { demoService with
  replicas := 2
  healthCheck := some ⟨"/", 5, 2, 3⟩ }

def unhealthy : system.Policy
  | .external (.waitForHealthy _ _), _ => .ok false
  | op, world => calm op world

def unstartable : system.Policy
  | .docker (.startContainer 1), _ => some "port is already allocated"
  | op, world => calm op world

def demoStart : Handler Unit := perform demoServer demoRuntime demoApp demoScaled .start

/-- The unhealthy replica fails the start and nothing is left of it. -/
theorem unhealthy_replica_removed :
    ∃ error final, Runs removing.can demoStart.run demoWorld (.error error) final ∧
      final.nextSerial = 1 ∧ NoneUnrecorded demoApp demoScaled demoWorld final := by
  have ran : (demoStart.run.runChecked (removing.observed observe)
      (fun op state => unhealthy op state.1) (demoWorld, ⟨[], false⟩)).map
        (fun last => (last.1.toOption, last.2.2, last.2.1.nextSerial)) =
          some (none, ⟨[], false⟩, 1) := by decide +kernel
  obtain ⟨⟨outcome, final, seen⟩, executed, facts⟩ := Option.map_eq_some_iff.mp ran
  obtain ⟨failed, rest⟩ := Prod.mk.inj facts
  obtain ⟨isSeen, serial⟩ := Prod.mk.inj rest
  cases outcome with
  | ok value => cases failed
  | error error =>
      have run := Runs.of_checked executed
      have recorded := (failures_recorded_iff demoServer demoRuntime (by decide) (by decide)).runs
          run
        error rfl (by rw [isSeen])
      refine ⟨error, final, run.unobserved, serial, recorded.mpr ?_⟩
      rw [isSeen]
      exact fun _ member => absurd member List.not_mem_nil

/-- The second replica cannot be started: its container stays, and so does the first one, which
runs, while no record names them. -/
theorem started_replicas_unrecorded :
    ∃ error final, Runs removing.can demoStart.run demoWorld (.error error) final ∧
      final.containers.map (fun container => (container.serial, container.running)) =
        [(0, true), (1, false)] ∧
      final.db.serviceDeployments = [] ∧ ¬NoneUnrecorded demoApp demoScaled demoWorld final := by
  have ran : (demoStart.run.runChecked removing unstartable demoWorld).map
        (fun last => (last.1.toOption, last.2.containers.map (fun container =>
          (container.serial, container.running)), last.2.db.serviceDeployments)) =
          some (none, [(0, true), (1, false)], []) := by decide +kernel
  obtain ⟨⟨outcome, final⟩, executed, facts⟩ := Option.map_eq_some_iff.mp ran
  obtain ⟨failed, rest⟩ := Prod.mk.inj facts
  obtain ⟨containers, rows⟩ := Prod.mk.inj rest
  cases outcome with
  | ok value => cases failed
  | error error =>
      refine ⟨error, final, Runs.of_checked executed, containers, rows, fun recorded => ?_⟩
      have some_ : final.containers ≠ [] := by
        intro none
        rw [none] at containers
        cases containers
      obtain ⟨container, member⟩ := List.exists_mem_of_ne_nil _ some_
      obtain ⟨picked, -, row, stored, -⟩ := recorded container member (Nat.zero_le _)
      unfold Database.rowsOf at stored
      rw [rows] at stored
      cases stored

end Containr.Api.Services
