import Containr.Api.Identity
import Containr.Api.Replicas

/-!
# Deployments in progress under start, stop and scale

Whatever the three operations write is written to the deployment they pick. They leave the
deployments the worker still has to finish alone as long as the pick is not one of them, or
there is nothing to change about it.
-/

namespace Containr.Api.Services

open Containr.Effect Containr.Effect.Program Containr.Worker

/-- `list_deployments_by_app` when nothing happens between its statements. -/
def storedDeployments (db : Database) (appId : Uuid) : List Deployment :=
  (db.deploymentRowsByApp appId).map fun row =>
    { row with serviceDeployments := db.serviceDeploymentsOf row.id }

/-- The newest running deployment with an image of the service, else the newest with one. -/
def pickDeployment (deployments : List Deployment) (service : ContainerService) :
    Option Deployment :=
  let sorted := deployments.insertionSort fun left right => right.createdAt ≤ left.createdAt
  (sorted.find? fun deployment =>
    deployment.status = .running && deploymentHasServiceImage deployment service).orElse fun _ =>
      sorted.find? fun deployment => deploymentHasServiceImage deployment service

theorem pick_mem {deployments : List Deployment} {service : ContainerService}
    {picked : Deployment} (found : pickDeployment deployments service = some picked) :
    picked ∈ deployments := newest_found_mem found

section Exact

variable {db : Database}

theorem with_service_deployments_exact (rows : List Deployment) :
    (Store.withServiceDeployments rows).run.Under (Exact db) Op.Reading
      (OnOk fun found => found = rows.map fun row =>
        { row with serviceDeployments := db.serviceDeploymentsOf row.id }) := by
  induction rows with
  | nil => exact under_return rfl
  | cons row rows ih =>
      apply under_chain (query_exact (.serviceDeployments row.id))
      intro children readChildren
      apply under_chain ih
      intro others readOthers
      apply under_return
      rw [readChildren, readOthers]
      rfl

theorem list_deployments_exact (appId : Uuid) :
    (Store.listDeploymentsByApp appId).run.Under (Exact db) Op.Reading
      (OnOk fun found => found = storedDeployments db appId) := by
  apply under_chain (query_exact (.deploymentsByApp appId))
  intro rows read
  rw [show rows = db.deploymentRowsByApp appId from read]
  exact with_service_deployments_exact _

theorem resolve_deployment_exact (app : App) (service : ContainerService) :
    (resolveAppServiceDeployment app service).run.Under (Exact db) Op.Reading
      (OnOk fun found => found = pickDeployment (storedDeployments db app.id) service) := by
  apply under_chain (Queueing.internal_under (list_deployments_exact app.id))
  intro deployments read
  apply under_return
  rw [read]
  rfl

end Exact

def Touches (id : Uuid) : Op → Prop
  | .write (.saveDeployment deployment) => deployment.id = id
  | .write (.saveServiceDeployment row) => row.deploymentId = id
  | .write (.appendDeploymentLog _ _) => True
  | .write _ => False
  | _ => True

def Owned (id : Uuid) (rows : List ServiceDeployment) : Prop :=
  ∀ row ∈ rows, row.deploymentId = id

/-- The answers do not matter, and only the deployment `id` is written. -/
abbrev Confined {Value : Type} (id : Uuid) (program : Sys Value) (post : Value → Prop) : Prop :=
  program.Under (fun _ _ => True) (Touches id) post

section Confined

variable {id : Uuid} {names : String → Prop}

theorem touches_of_within (op : Op) (within : op.Within names fun _ => False) : Touches id op := by
  cases op with
  | write change =>
      cases change with
      | saveServiceDeployment row => exact within.elim
      | appendDeploymentLog id line => trivial
      | saveApp app => exact within
      | deleteApp id => exact within
      | saveDeployment deployment => exact within.elim
      | deleteDeployment id => exact within
  | _ => trivial

theorem op_confined {op : Op} (permitted : Touches id op) :
    @Under Effects op.Answer (fun _ _ => True) (Touches id) op.call fun _ => True :=
  under_op permitted fun _ _ => trivial

theorem now_confined : Confined id utcNow fun _ => True := op_confined trivial

theorem manager_confined {allowed : Op → Prop}
    (acts : ∀ action, allowed (.external action)) :
    (orInternal (ExceptT.mk (external .serviceManager))).run.Under (fun _ _ => True) allowed
      (OnOk fun _ => True) :=
  (or_internal_calls (op_calls (acts _))).under_ok

variable (service : ContainerService) (action : String) (runtime : Runtime) (app : App)

theorem start_service_replica_calls (service : ContainerService) (deployment : Deployment)
    (image : String) (replica : Nat) :
    (startServiceReplica runtime app service deployment image replica).run.Calls
      (Op.Within (fun _ => True) fun _ => False) := by
  have named : ∀ {Value : Type} {names : String → Prop} {program : Sys Value},
      program.Calls (Op.Within names fun _ => False) →
        program.Calls (Op.Within (fun _ => True) fun _ => False) :=
    fun calls => calls.mono (Op.Within.mono (fun _ _ => trivial) fun _ absurd => absurd)
  apply Calls.run_bind (external_calls _)
  intro _
  apply Calls.run_lift_bind (named (stop_container_calls _))
  intro _
  apply Calls.run_lift_bind (named (remove_container_calls _))
  intro _
  apply Calls.run_bind
  · unfold pullReplicaImage
    split
    · apply Calls.run_bind (named (resolve_registry_credentials_quiet _ _ _ _))
      intro credentials
      exact external_calls _
    · exact calls_run_pure _
  intro _
  apply Calls.run_bind (named (build_service_mounts_quiet _ _ _))
  intro mounts
  apply Calls.run_bind (named (create_container_calls _))
  intro _
  apply Calls.run_bind
  · unfold requireHealthy
    split
    · apply Calls.run_bind (external_calls _)
      intro healthy
      split
      · apply Calls.run_lift_bind (named (stop_container_calls _))
        intro _
        apply Calls.run_lift_bind (named (remove_container_calls _))
        intro _
        exact calls_run_throw _
      · exact calls_run_pure _
    · exact calls_run_pure _
  intro _
  exact calls_run_pure _

theorem or_manager_confined {Value : Type} {program : Fallible Value}
    (calls : program.run.Calls (Op.Within names fun _ => False)) :
    Confined id (orManager action program).run (OnOk fun _ => True) :=
  (Calls.bind (calls.mono touches_of_within) fun _ => calls_pure _).under_ok

def replicaRuns (deployment : Deployment) (service : ContainerService) (replica : Nat) : Bool :=
  (deployment.serviceDeployments.find? (ofReplica service.id replica)).any rowRuns

def HasRunning (service : ContainerService) (wanted : Nat → Prop)
    (rows : List ServiceDeployment) : Prop :=
  ∃ row ∈ rows, row.serviceId = service.id ∧ wanted row.replicaIndex ∧ row.status = .running

/-- What the rounds do to the record: it still belongs to the deployment, and nothing is
started exactly when every replica runs; the record is then the one it was. -/
structure Ensured (before : Deployment) (service : ContainerService) (replicas : List Nat)
    (after : Deployment × Bool) : Prop where
  sameId : after.1.id = before.id
  owned : Owned before.id before.serviceDeployments → Owned before.id after.1.serviceDeployments
  started : after.2 = false ↔ ∀ replica ∈ replicas, replicaRuns before service replica = true
  untouched : after.2 = false → after.1 = before
  running : after.2 = true → HasRunning service (· ∈ replicas) after.1.serviceDeployments
  keeps : ∀ wanted, HasRunning service wanted before.serviceDeployments →
    HasRunning service wanted after.1.serviceDeployments

variable {rows : List ServiceDeployment}

theorem has_running_modify {service : ContainerService} {wanted : Nat → Prop} (index : Nat)
    (image container : String) (now : Time) (runs : HasRunning service wanted rows) :
    HasRunning service wanted (rows.modify index (startedRow image container now)) := by
  obtain ⟨row, member, ofService, isWanted, isRunning⟩ := runs
  obtain ⟨position, stored⟩ := List.mem_iff_getElem?.mp member
  have modified : (rows.modify index (startedRow image container now))[position]? =
      some (if index = position then startedRow image container now row else row) := by
    rw [List.getElem?_modify, stored]
    rfl
  refine ⟨_, List.mem_of_getElem? modified, ?_⟩
  split_ifs
  · exact ⟨ofService, isWanted, rfl⟩
  · exact ⟨ofService, isWanted, isRunning⟩

theorem start_replica_at_confined (service : ContainerService) (replica : Nat) {before : Deployment}
    (ensured : Deployment) (index : Nat) (sameId : ensured.id = before.id)
    (owned : Owned before.id before.serviceDeployments → Owned before.id ensured.serviceDeployments)
    (grown : before.serviceDeployments ⊆ ensured.serviceDeployments)
    (present : ∃ row, ensured.serviceDeployments[index]? = some row ∧
      ofReplica service.id replica row = true)
    (same : ensured.serviceDeployments[index]?.any rowRuns = true → ensured = before)
    (running : ensured.serviceDeployments[index]?.any rowRuns =
      replicaRuns before service replica) :
    Confined id (startReplicaAt action runtime app service replica ensured index).run
      (OnOk (Ensured before service [replica])) := by
  unfold startReplicaAt
  split
  · rename_i runs
    apply under_return
    have unchanged := same runs
    rw [running] at runs
    refine ⟨sameId, owned, by simp [runs], fun _ => unchanged, fun absurd => (by cases absurd), ?_⟩
    intro wanted held
    rw [unchanged]
    exact held
  · rename_i halted
    split
    · rename_i image _
      apply under_chain (or_manager_confined action
        (start_service_replica_calls runtime app service ensured image replica))
      intro container _
      apply under_lift_chain now_confined
      intro now _
      apply under_return
      refine ⟨sameId, fun ownedBefore row member => ?_, ?_, fun absurd => (by cases absurd), ?_, ?_⟩
      · obtain ⟨position, found⟩ := List.mem_iff_getElem?.mp member
        rw [List.getElem?_modify] at found
        obtain ⟨old, stored, same⟩ := Option.map_eq_some_iff.mp found
        have ownedOld := owned ownedBefore old (List.mem_of_getElem? stored)
        split_ifs at same with here
        · rw [← same]
          exact ownedOld
        · rw [← same]
          exact ownedOld
      · rw [running] at halted
        simp [halted]
      · intro _
        obtain ⟨row, stored, matched⟩ := present
        have modified : (ensured.serviceDeployments.modify index
            (startedRow image container now))[index]? =
              some (startedRow image container now row) := by
          rw [List.getElem?_modify, stored]
          simp
        obtain ⟨ofService, ofIndex⟩ := Bool.and_eq_true_iff.mp matched
        refine ⟨_, List.mem_of_getElem? modified, of_decide_eq_true ofService, ?_, rfl⟩
        exact List.mem_singleton.mpr (of_decide_eq_true ofIndex)
      · rintro wanted ⟨row, member, held⟩
        exact has_running_modify index image container now ⟨row, grown member, held⟩
    · exact under_throw _ _

/-- The position is that of the replica's first record, or of the record that was appended. -/
theorem ensure_index_confined (deployment : Deployment) (replica : Nat) :
    Confined id (ensureServiceDeploymentIndex deployment service.id replica) fun found =>
      found.1.id = deployment.id ∧
      (Owned deployment.id deployment.serviceDeployments →
        Owned deployment.id found.1.serviceDeployments) ∧
      deployment.serviceDeployments ⊆ found.1.serviceDeployments ∧
      (∃ row, found.1.serviceDeployments[found.2]? = some row ∧
        ofReplica service.id replica row = true) ∧
      (found.1.serviceDeployments[found.2]?.any rowRuns = true → found.1 = deployment) ∧
      found.1.serviceDeployments[found.2]?.any rowRuns =
        replicaRuns deployment service replica := by
  unfold ensureServiceDeploymentIndex replicaRuns
  cases found : deployment.serviceDeployments.findIdx? (ofReplica service.id replica) with
  | some index =>
      apply under_pure.mpr
      obtain ⟨inRange, matched, earlier⟩ := List.findIdx?_eq_some_iff_getElem.mp found
      refine ⟨rfl, fun owned => owned, fun _ member => member,
        ⟨_, List.getElem?_eq_getElem inRange, matched⟩, fun _ => rfl, ?_⟩
      have first : deployment.serviceDeployments.find? (ofReplica service.id replica) =
          some deployment.serviceDeployments[index] := by
        rw [List.find?_eq_some_iff_getElem]
        refine ⟨matched, index, inRange, rfl, fun position before => ?_⟩
        simpa using earlier position before
      rw [first, List.getElem?_eq_getElem inRange]
  | none =>
      have absent : deployment.serviceDeployments.find? (ofReplica service.id replica) = none := by
        rw [List.find?_eq_none]
        rw [List.findIdx?_eq_none_iff] at found
        intro row member
        simpa using found row member
      apply under_bind.mpr
      apply under_op trivial
      intro rowId _
      apply under_bind.mpr
      apply under_op trivial
      intro now _
      apply under_pure.mpr
      have last : (deployment.serviceDeployments ++ [ServiceDeployment.new rowId now service.id
          deployment.id replica])[deployment.serviceDeployments.length]? =
            some (ServiceDeployment.new rowId now service.id deployment.id replica) := by
        rw [List.getElem?_append_right (Nat.le_refl _), Nat.sub_self]
        rfl
      have halted : (deployment.serviceDeployments ++ [ServiceDeployment.new rowId now service.id
          deployment.id replica])[deployment.serviceDeployments.length]?.any rowRuns = false := by
        rw [last]
        rfl
      have matched : ofReplica service.id replica
          (ServiceDeployment.new rowId now service.id deployment.id replica) = true := by
        simp [ofReplica, ServiceDeployment.new]
      refine ⟨rfl, fun owned row member => ?_, fun row member => List.mem_append_left _ member,
        ⟨_, last, matched⟩, fun runs => ?_, ?_⟩
      · rcases List.mem_append.mp member with old | new
        · exact owned row old
        · rw [List.mem_singleton.mp new]
          rfl
      · rw [halted] at runs
        cases runs
      · rw [absent]
        exact halted

theorem ensure_replica_confined (service : ContainerService) (deployment : Deployment)
    (replica : Nat) : Confined id (ensureReplica action runtime app service deployment replica).run
      (OnOk (Ensured deployment service [replica])) := by
  apply under_lift_chain (ensure_index_confined service deployment replica)
  rintro ⟨ensured, index⟩ ⟨sameId, owned, grown, present, same, running⟩
  exact start_replica_at_confined action runtime app service replica ensured index sameId owned
    grown present same running

theorem ensure_replicas_confined (service : ContainerService) (replicas : List Nat)
    (deployment : Deployment) :
    Confined id (ensureReplicas action runtime app service replicas deployment).run
      (OnOk (Ensured deployment service replicas)) := by
  induction replicas generalizing deployment with
  | nil =>
      apply under_return
      exact ⟨rfl, fun owned => owned, by simp, fun _ => rfl, fun absurd => (by cases absurd),
        fun _ held => held⟩
  | cons replica replicas ih =>
      apply under_chain (ensure_replica_confined action runtime app service deployment replica)
      rintro ⟨ensured, startedFirst⟩ first
      apply under_chain (ih ensured)
      rintro ⟨last, startedRest⟩ rest
      apply under_return
      have sameFirst : ensured.id = deployment.id := first.sameId
      refine ⟨rest.sameId.trans sameFirst, ?_, ?_, ?_, ?_, ?_⟩
      · intro owned
        have after := rest.owned (by rw [sameFirst]; exact first.owned owned)
        rw [sameFirst] at after
        exact after
      · have own := first.started
        have others := rest.started
        dsimp only at own others ⊢
        rw [Bool.or_eq_false_iff, List.forall_mem_cons]
        constructor
        · rintro ⟨noStart, noOthers⟩
          have unchanged : ensured = deployment := first.untouched noStart
          rw [unchanged] at others
          exact ⟨own.mp noStart replica List.mem_cons_self, others.mp noOthers⟩
        · rintro ⟨runs, rest⟩
          have noStart : startedFirst = false := own.mpr (by simpa using runs)
          have unchanged : ensured = deployment := first.untouched noStart
          rw [unchanged] at others
          exact ⟨noStart, others.mpr rest⟩
      · intro quiet
        obtain ⟨noStart, noOthers⟩ := Bool.or_eq_false_iff.mp quiet
        have sameLast : last = ensured := rest.untouched noOthers
        exact sameLast.trans (first.untouched noStart)
      · intro touched
        rcases Bool.or_eq_true_iff.mp touched with own | others
        · obtain ⟨row, member, ofService, only, isRunning⟩ := first.running own
          apply rest.keeps
          refine ⟨row, member, ofService, ?_, isRunning⟩
          rw [List.mem_singleton.mp only]
          exact List.mem_cons_self
        · obtain ⟨row, member, ofService, inRest, isRunning⟩ := rest.running others
          exact ⟨row, member, ofService, List.mem_cons_of_mem _ inRest, isRunning⟩
      · intro wanted held
        exact rest.keeps wanted (first.keeps wanted held)

theorem persist_confined {deployment : Deployment} (sameId : deployment.id = id)
    (owned : Owned id deployment.serviceDeployments) :
    Confined id (persistDeployment deployment).run (OnOk fun _ => True) := by
  have rowsSaved : ∀ row ∈ deployment.serviceDeployments,
      (orInternal (Store.saveServiceDeployment row)).run.Calls (Touches id) := by
    intro row member
    exact or_internal_calls (op_calls (owned row member))
  apply under_chain (Queueing.internal_under (@Calls.under_ok Effects _ _ _ _ _ (op_calls sameId)))
  intro _ _
  exact (calls_for_each _ rowsSaved).under_ok

theorem refresh_confined (server : Server) (appId : Uuid) :
    Confined id (refreshProxyRoutes server appId) fun _ => True := by
  unfold refreshProxyRoutes
  have sends : (external (.sendProxyRefresh appId)).Calls (Touches id) := op_calls trivial
  exact (calls_ite sends (calls_pure _)).under

theorem started_at_confined (deployment : Deployment) :
    Confined id (startedAtOrNow deployment) fun _ => True := by
  unfold startedAtOrNow
  split
  · exact under_pure.mpr trivial
  · exact now_confined

/-- What a stop makes of a record. -/
def stoppedRow (now : Time) (row : ServiceDeployment) : ServiceDeployment :=
  { row with status := .stopped, finishedAt := some now, containerId := none }

theorem touches_of_stops (op : Op) (stops : Op.Stops op) : Touches id op := by
  cases op with
  | write change => exact stops.elim
  | _ => trivial

theorem stop_replicas_confined (containers : List String) :
    Confined id (Program.forAll stopServiceReplica containers) fun _ => True := by
  apply Calls.under
  apply calls_for_all
  intro container _
  exact (stop_service_replica_stops container).mono touches_of_stops

def StoppedWhere (selected : ServiceDeployment → Bool) (row stopped : ServiceDeployment) : Prop :=
  (selected row = true ∧ ∃ now, stopped = stoppedRow now row) ∨
    (selected row = false ∧ stopped = row)

theorem stop_row_confined (serviceId : Uuid) (row : ServiceDeployment) :
    Confined id (stopServiceRow serviceId true row)
      (StoppedWhere (fun row => row.serviceId = serviceId) row) := by
  unfold stopServiceRow
  split
  · rename_i ofService
    apply (stop_replicas_confined _).bind
    intro _ _
    apply under_bind.mpr
    apply under_op trivial
    intro now _
    exact under_pure.mpr (Or.inl ⟨decide_eq_true ofService, now, rfl⟩)
  · rename_i other
    exact under_pure.mpr (Or.inr ⟨decide_eq_false other, rfl⟩)

theorem stop_rows_confined (serviceId : Uuid) (rows : List ServiceDeployment) :
    Confined id (stopServiceRows serviceId true rows)
      (List.Forall₂ (StoppedWhere fun row => row.serviceId = serviceId) rows) := by
  induction rows with
  | nil => exact under_pure.mpr .nil
  | cons row rows ih =>
      apply (stop_row_confined serviceId row).bind
      intro stopped own
      apply ih.bind
      intro others rest
      exact under_pure.mpr (.cons own rest)

theorem stop_surplus_row_confined (row : ServiceDeployment) :
    Confined id (stopSurplusRow service row) (StoppedWhere (surplusRow service) row) := by
  unfold stopSurplusRow
  split
  · rename_i surplus
    have ofService := (Bool.and_eq_true_iff.mp surplus).1
    apply (stop_row_confined service.id row).mono
    rintro stopped (⟨-, marked⟩ | ⟨other, -⟩)
    · exact Or.inl ⟨surplus, marked⟩
    · exact absurd (other.symm.trans ofService) Bool.false_ne_true
  · rename_i wanted
    exact under_pure.mpr (Or.inr ⟨Bool.eq_false_iff.mpr wanted, rfl⟩)

theorem stop_surplus_confined (rows : List ServiceDeployment) :
    Confined id (stopSurplusRows service rows)
      (List.Forall₂ (StoppedWhere (surplusRow service)) rows) := by
  induction rows with
  | nil => exact under_pure.mpr .nil
  | cons row rows ih =>
      apply (stop_surplus_row_confined service row).bind
      intro stopped own
      apply ih.bind
      intro others rest
      exact under_pure.mpr (.cons own rest)

variable {selected : ServiceDeployment → Bool} {stopped : List ServiceDeployment}

theorem owned_stopped (each : List.Forall₂ (StoppedWhere selected) rows stopped)
    (owned : Owned id rows) : Owned id stopped := by
  induction each with
  | nil => exact owned
  | cons first rest ih =>
      have others := ih fun other inRest => owned other (List.mem_cons_of_mem _ inRest)
      have ownedFirst := owned _ List.mem_cons_self
      intro row member
      rcases List.mem_cons.mp member with same | later
      · rcases first with ⟨-, now, marked⟩ | ⟨-, kept⟩
        · rw [same, marked]
          exact ownedFirst
        · rw [same, kept]
          exact ownedFirst
      · exact others row later

theorem kept_stopped (each : List.Forall₂ (StoppedWhere selected) rows stopped)
    {row : ServiceDeployment} (member : row ∈ rows) (other : selected row = false) :
    row ∈ stopped := by
  induction each with
  | nil => cases member
  | cons first rest ih =>
      rcases List.mem_cons.mp member with same | later
      · rcases first with ⟨chosen, -⟩ | ⟨-, kept⟩
        · rw [same, chosen] at other
          cases other
        · rw [same, ← kept]
          exact List.mem_cons_self
      · exact List.mem_cons_of_mem _ (ih later)

/-- A selected record is no longer open. -/
theorem closed_stopped (each : List.Forall₂ (StoppedWhere selected) rows stopped)
    {row : ServiceDeployment} (member : row ∈ stopped) (chosen : selected row = true) :
    row.status = .stopped ∧ row.containerId = none := by
  induction each with
  | nil => cases member
  | cons first rest ih =>
      rcases List.mem_cons.mp member with isFirst | later
      · rcases first with ⟨-, now, marked⟩ | ⟨other, kept⟩
        · rw [isFirst, marked]
          exact ⟨rfl, rfl⟩
        · rw [isFirst, kept, other] at chosen
          cases chosen
      · exact ih later

theorem stop_cron_confined (service : ContainerService) :
    Confined id (stopCronContainers app service).run (OnOk fun _ => True) :=
  ((stop_cron_containers_stops app service).mono touches_of_stops).under_ok

end Confined

inductive ReplicaChange where
  | start | stop | scale
deriving DecidableEq, Repr

def perform (server : Server) (runtime : Runtime) (app : App) (service : ContainerService) :
    ReplicaChange → Handler Unit
  | .start => startAppService server runtime app service
  | .stop => stopAppService server app service
  | .scale => reconcileAppServiceReplicas runtime app service

/-- `stop_app_service` behind the choice of the deployment. -/
def stopPicked (server : Server) (app : App) (service : ContainerService) (picked : Deployment) :
    Handler Unit := do
  orInternal (ExceptT.mk (external .serviceManager))
  let cronStopped ← stopCronContainers app service
  let rows ← stopServiceRows service.id true picked.serviceDeployments
  if cronStopped || picked.serviceDeployments.any (fun row => row.serviceId = service.id) then
    persistDeployment { picked with serviceDeployments := rows }
    if service.isPublicHttp then
      refreshProxyRoutes server app.id

def onPicked (server : Server) (runtime : Runtime) (app : App) (service : ContainerService)
    (picked : Deployment) : ReplicaChange → Handler Unit
  | .start => startPicked server runtime app service picked
  | .stop => stopPicked server app service picked
  | .scale => reconcilePicked runtime app service picked

def allRun (service : ContainerService) (picked : Deployment) : Bool :=
  (List.range (desiredReplicas service)).all (replicaRuns picked service)

def nothingToDo (service : ContainerService) (picked : Deployment) : ReplicaChange → Bool
  | .start => service.isCronJob || allRun service picked
  | .stop => !service.isCronJob &&
      !picked.serviceDeployments.any (fun row => row.serviceId = service.id)
  | .scale => service.isCronJob ||
      (allRun service picked && !picked.serviceDeployments.any (surplusRow service))

/-- A replica has to be started, or a record that says more than that it is stopped has to be
stopped. -/
def somethingToDo (service : ContainerService) (picked : Deployment) : ReplicaChange → Bool
  | .start | .scale => !service.isCronJob && !allRun service picked
  | .stop => picked.serviceDeployments.any fun row =>
      row.serviceId = service.id && (row.status ≠ .stopped || row.containerId.isSome)

section Operations

variable {server : Server} {runtime : Runtime} {app : App} {service : ContainerService}
  {picked : Deployment} {id : Uuid}

theorem all_run_iff : allRun service picked = true ↔
    ∀ replica ∈ List.range (desiredReplicas service), replicaRuns picked service replica = true :=
  List.all_eq_true

/-- A record of its own, or nothing that would be saved. -/
theorem start_picked_confined
    (own : (picked.id = id ∧ Owned id picked.serviceDeployments) ∨ allRun service picked = true) :
    Confined id (startPicked server runtime app service picked).run (OnOk fun _ => True) := by
  unfold startPicked
  apply under_chain (manager_confined fun _ => trivial)
  intro _ _
  apply under_chain (ensure_replicas_confined "start service" runtime app service _ picked)
  rintro ⟨deployment, changed⟩ ensured
  dsimp only
  split
  · rename_i isChanged
    apply under_lift_chain (started_at_confined deployment)
    intro startedAt _
    apply under_lift_chain now_confined
    intro now _
    have persisted : Confined id (persistDeployment { deployment with
        status := .running, startedAt := some startedAt, finishedAt := some now }).run
        (OnOk fun _ => True) := by
      rcases own with ⟨sameId, owned⟩ | runs
      · have ownedAfter := ensured.owned (by rw [sameId]; exact owned)
        rw [sameId] at ownedAfter
        exact persist_confined (ensured.sameId.trans sameId) ownedAfter
      · have unchanged : changed = false := ensured.started.mpr (all_run_iff.mp runs)
        rw [unchanged] at isChanged
        cases isChanged
    apply under_chain persisted
    intro _ _
    split
    · exact under_lift (refresh_confined server app.id) |>.ok_mono fun _ _ => trivial
    · exact under_return trivial
  · exact under_return trivial

theorem stop_picked_confined
    (own : (picked.id = id ∧ Owned id picked.serviceDeployments) ∨
      nothingToDo service picked .stop = true) :
    Confined id (stopPicked server app service picked).run (OnOk fun _ => True) := by
  unfold stopPicked
  apply under_chain (manager_confined fun _ => trivial)
  intro _ _
  have cron : Confined id (stopCronContainers app service).run
      (OnOk fun stopped => service.isCronJob = false → stopped = false) := by
    by_cases isCron : service.isCronJob = true
    · apply (stop_cron_confined app service).ok_mono
      intro _ _ notCron
      rw [isCron] at notCron
      cases notCron
    · unfold stopCronContainers
      rw [Bool.eq_false_iff.mpr isCron]
      exact under_return fun _ => rfl
  apply under_chain cron
  intro cronStopped quiet
  apply under_lift_chain (stop_rows_confined service.id picked.serviceDeployments)
  intro rows each
  split
  · rename_i isChanged
    have persisted : Confined id (persistDeployment { picked with serviceDeployments := rows }).run
        (OnOk fun _ => True) := by
      rcases own with ⟨sameId, owned⟩ | nothing
      · exact persist_confined sameId (owned_stopped each owned)
      · obtain ⟨notCron, noRows⟩ := Bool.and_eq_true_iff.mp nothing
        rw [quiet (by simpa using notCron)] at isChanged
        simp only [Bool.false_or] at isChanged
        rw [isChanged] at noRows
        cases noRows
    apply under_chain persisted
    intro _ _
    split
    · exact under_lift (refresh_confined server app.id) |>.ok_mono fun _ _ => trivial
    · exact under_return trivial
  · exact under_return trivial

theorem reconcile_picked_confined
    (own : (picked.id = id ∧ Owned id picked.serviceDeployments) ∨
      (allRun service picked && !picked.serviceDeployments.any (surplusRow service)) = true) :
    Confined id (reconcilePicked runtime app service picked).run (OnOk fun _ => True) := by
  unfold reconcilePicked
  apply under_chain (manager_confined fun _ => trivial)
  intro _ _
  apply under_chain (ensure_replicas_confined "scale service" runtime app service _ picked)
  rintro ⟨deployment, changed⟩ ensured
  apply under_lift_chain (stop_surplus_confined service deployment.serviceDeployments)
  intro rows each
  split
  · rename_i isChanged
    dsimp only
    apply under_lift_chain (started_at_confined _)
    intro startedAt _
    apply under_lift_chain now_confined
    intro now _
    rcases own with ⟨sameId, owned⟩ | nothing
    · have ownedAfter := ensured.owned (by rw [sameId]; exact owned)
      rw [sameId] at ownedAfter
      exact persist_confined (ensured.sameId.trans sameId) (owned_stopped each ownedAfter)
    · obtain ⟨runs, noSurplus⟩ := Bool.and_eq_true_iff.mp nothing
      have unchanged : changed = false := ensured.started.mpr (all_run_iff.mp runs)
      have same : deployment = picked := ensured.untouched unchanged
      rw [unchanged, same, Bool.false_or] at isChanged
      rw [isChanged] at noSurplus
      cases noSurplus
  · exact under_return trivial

/-- An operation on a record of its own, or without anything to save, writes no other
deployment. -/
theorem on_picked_confined {change : ReplicaChange}
    (own : (picked.id = id ∧ Owned id picked.serviceDeployments) ∨
      nothingToDo service picked change = true)
    (scheduled : change ≠ .stop → service.isCronJob = false) :
    Confined id (onPicked server runtime app service picked change).run (OnOk fun _ => True) := by
  cases change with
  | stop => exact stop_picked_confined own
  | start =>
      have notCron := scheduled (by simp)
      apply start_picked_confined
      apply own.imp_right
      intro nothing
      simpa [nothingToDo, notCron] using nothing
  | scale =>
      have notCron := scheduled (by simp)
      apply reconcile_picked_confined
      apply own.imp_right
      intro nothing
      simpa [nothingToDo, notCron] using nothing

end Operations

/-- The records of every deployment but one are as they were. -/
def Elsewhere (id : Uuid) (before after : Database) : Prop :=
  ∀ other, other ≠ id → after.deploymentRow other = before.deploymentRow other ∧
    after.rowsOf other = before.rowsOf other

theorem elsewhere_step {id : Uuid} {start : Database} {op : Op} {before after : World}
    {answer : op.Answer} (touches : Touches id op) (held : Elsewhere id start before.db)
    (possible : Possible op before answer after) : Elsewhere id start after.db := by
  cases op with
  | write change =>
      rcases possible_write possible with ⟨-, db, applied, same⟩ | ⟨same, -⟩
      · rw [same]
        intro other different
        obtain ⟨row, rows⟩ := held other different
        rw [← row, ← rows]
        cases change with
        | saveDeployment deployment =>
            have otherId : other ≠ deployment.id := by
              rw [show deployment.id = id from touches]
              exact different
            exact ⟨Database.save_deployment_row_other applied otherId,
              Database.save_deployment_rows_other applied otherId⟩
        | saveServiceDeployment saved =>
            have otherId : other ≠ saved.deploymentId := by
              rw [show saved.deploymentId = id from touches]
              exact different
            refine ⟨?_, Database.save_service_deployment_rows_other applied otherId⟩
            rw [Database.save_service_deployment_shape applied]
            rfl
        | appendDeploymentLog logged line =>
            rw [Database.append_deployment_log_shape applied]
            exact ⟨rfl, rfl⟩
        | saveApp app => exact touches.elim
        | deleteApp deleted => exact touches.elim
        | deleteDeployment deleted => exact touches.elim
      · rw [same]
        exact held
  | _ =>
      rw [possible_db possible (by simp)]
      exact held

theorem confined_elsewhere {Value : Type} {id : Uuid} {program : Sys Value} {post : Value → Prop}
    (confined : Confined id program post) {world : World} {start : Database}
    (held : Elsewhere id start world.db) :
    program.Ensures Possible (fun _ after => Elsewhere id start after.db) world := by
  have answers : ∀ op before answer after, Elsewhere id start (World.db before) →
      Possible op before answer after → True := fun _ _ _ _ _ _ => trivial
  have keeps : ∀ op before answer after, Touches id op → Elsewhere id start (World.db before) →
      Possible op before answer after → Elsewhere id start after.db :=
    fun op before answer after touches held possible => elsewhere_step touches held possible
  have always := @Program.Under.always Effects Value _ _ World Possible
    (fun state => Elsewhere id start state.db) program post confined answers keeps world held
  apply (always.restrict (fun _ _ _ _ possible => possible) fun _ _ _ => trivial).mono
  exact fun _ _ kept => kept.2

def InProgressKept (before after : Database) : Prop :=
  ∀ id status, before.statusOf id = some status → status.inProgress = true →
    after.deploymentRow id = before.deploymentRow id ∧ after.rowsOf id = before.rowsOf id

section Kept

variable {server : Server} {runtime : Runtime} {app : App} {service : ContainerService}
  {world : World}

/-- An operation ends without a choice or works on the deployment that is picked. -/
theorem perform_always {post : Except ApiError Unit → World → Prop} (change : ReplicaChange)
    (quiet : ∀ result after, after.db = world.db →
      (result = .ok () → change ≠ .stop ∧ service.isCronJob = true ∨
        pickDeployment (storedDeployments world.db app.id) service = none) → post result after)
    (acts : ∀ picked, pickDeployment (storedDeployments world.db app.id) service = some picked →
      (change ≠ .stop → service.isCronJob = false) → ∀ after : World, after.db = world.db →
        (onPicked server runtime app service picked change).run.Ensures Possible post after) :
    (perform server runtime app service change).run.Ensures Possible post world := by
  have start : world.db = world.db := rfl
  have resolved := exact_always (resolve_deployment_exact app service) start
  have picks := resolved.restrict (fun _ _ _ _ possible => possible)
    (fun _ _ _ => trivial : ∀ before op, Op.Reading op → True)
  have failed : ∀ error after, World.db after = world.db → post (.error error) after :=
    fun error after same => quiet _ after same fun absurd => by cases absurd
  cases change with
  | start =>
      unfold perform startAppService
      by_cases isCron : service.isCronJob = true
      · rw [isCron]
        apply always_run_bind.mpr
        apply always_run_throw.mpr
        exact failed _ _ rfl
      · have notCron := Bool.eq_false_iff.mpr isCron
        rw [notCron]
        apply always_run_bind.mpr
        apply always_run_pure.mpr
        apply picks.run_bind
        rintro (error | found) after ⟨read, same⟩
        · exact failed error after same
        · cases found with
          | none =>
              apply always_run_throw.mpr
              exact failed _ after same
          | some picked => exact acts picked read.symm (fun _ => notCron) after same
  | stop =>
      unfold perform stopAppService
      apply picks.run_bind
      rintro (error | found) after ⟨read, same⟩
      · exact failed error after same
      · cases found with
        | none =>
            apply always_run_throw.mpr
            exact failed _ after same
        | some picked => exact acts picked read.symm (fun absurd => absurd.elim rfl) after same
  | scale =>
      unfold perform reconcileAppServiceReplicas
      by_cases isCron : service.isCronJob = true
      · rw [if_pos isCron]
        apply always_run_pure.mpr
        exact quiet _ _ rfl fun _ => Or.inl ⟨by simp, isCron⟩
      · rw [if_neg isCron]
        apply picks.run_bind
        rintro (error | found) after ⟨read, same⟩
        · exact failed error after same
        · cases found with
          | none =>
              apply always_run_pure.mpr
              exact quiet _ after same fun _ => Or.inr read.symm
          | some picked =>
              exact acts picked read.symm (fun _ => Bool.eq_false_iff.mpr isCron) after same

variable {picked : Deployment}

theorem pick_stored (primaryKey : (world.db.deployments.map (·.id)).Nodup)
    (found : pickDeployment (storedDeployments world.db app.id) service = some picked) :
    world.db.statusOf picked.id = some picked.status ∧
      ∀ row, row ∈ picked.serviceDeployments ↔ row ∈ world.db.rowsOf picked.id := by
  obtain ⟨row, listed, rfl⟩ := List.mem_map.mp (pick_mem found)
  have sorted : row ∈ world.db.deployments.filter (·.appId = app.id) :=
    (List.mem_insertionSort _).mp listed
  have stored := lookup_of_mem primaryKey (List.mem_filter.mp sorted).1
  refine ⟨?_, fun other => List.mem_insertionSort _⟩
  unfold Database.statusOf Database.deploymentRow
  dsimp only
  rw [stored]
  rfl

theorem rows_of_owned (db : Database) (id : Uuid) : Owned id (db.rowsOf id) := by
  intro row member
  exact of_decide_eq_true (List.mem_filter.mp member).2

theorem perform_kept (primaryKey : (world.db.deployments.map (·.id)).Nodup)
    (change : ReplicaChange)
    (settled : ∀ picked, pickDeployment (storedDeployments world.db app.id) service = some picked →
      picked.status.inProgress = false ∨ nothingToDo service picked change = true) :
    (perform server runtime app service change).run.Ensures Possible
      (fun _ after => InProgressKept world.db after.db) world := by
  apply always_of_runs
  intro result final run id status known inProgress
  have elsewhere : ∃ other, id ≠ other ∧
      (perform server runtime app service change).run.Ensures Possible
        (fun _ after => Elsewhere other world.db after.db) world := by
    have unchanged : ∀ other, ∀ after : World, after.db = world.db →
        Elsewhere other world.db after.db := by
      intro other after same different _
      rw [same]
      exact ⟨rfl, rfl⟩
    have fresh : id ≠ (⟨id.value + 1⟩ : Uuid) := by
      intro same
      have values := congrArg Uuid.value same
      dsimp only at values
      omega
    cases found : pickDeployment (storedDeployments world.db app.id) service with
    | none =>
        refine ⟨_, fresh, perform_always change (fun result after same _ => unchanged _ after same) ?_⟩
        intro picked absurd
        rw [found] at absurd
        cases absurd
    | some picked =>
        obtain ⟨statusPicked, rows⟩ := pick_stored primaryKey found
        have owned : Owned picked.id picked.serviceDeployments :=
          fun row member => rows_of_owned world.db picked.id row ((rows row).mp member)
        have confined : ∃ other, id ≠ other ∧ ((picked.id = other ∧
            Owned other picked.serviceDeployments) ∨ nothingToDo service picked change = true) := by
          rcases settled picked found with finished | nothing
          · refine ⟨picked.id, fun same => ?_, Or.inl ⟨rfl, owned⟩⟩
            rw [same, statusPicked] at known
            cases known
            rw [inProgress] at finished
            cases finished
          · exact ⟨_, fresh, Or.inr nothing⟩
        obtain ⟨other, different, own⟩ := confined
        refine ⟨other, different, perform_always change
          (fun result after same _ => unchanged _ after same) ?_⟩
        intro same sameFound scheduled after sameDb
        rw [found] at sameFound
        cases sameFound
        exact confined_elsewhere (on_picked_confined own scheduled) (unchanged other after sameDb)
  obtain ⟨other, different, always⟩ := elsewhere
  exact always.runs run id different

/-- What a saved record says is still so after its service deployments were saved too. -/
theorem persist_ensures {deployment : Deployment} {inv : Database → Prop}
    (saves : ∀ db after, Database.saveDeployment db deployment = some after → inv after)
    (rows : ∀ row ∈ deployment.serviceDeployments, ∀ db after,
      Database.saveServiceDeployment db row = some after → inv db → inv after) (world : World) :
    (persistDeployment deployment).run.Ensures Possible
      (fun result after => result = .ok () → inv after.db) world := by
  unfold persistDeployment
  apply always_run_bind.mpr
  apply or_internal_always.mpr
  apply always_op trivial
  intro answer after possible
  rcases possible_write possible with ⟨done, db, applied, same⟩ | ⟨-, message, failed⟩
  · rw [done]
    have saved : inv after.db := by
      rw [same]
      exact saves _ _ applied
    have each := @always_for_each Effects World ApiError Possible (fun _ _ => True)
      ServiceDeployment (fun row => (orInternal (Store.saveServiceDeployment row)).run)
      (fun _ state => inv state.db) (fun result state => result = .ok () → inv state.db)
      deployment.serviceDeployments [] after saved (fun _ held _ => held) ?_
    · exact each
    · intro before row rest state split held
      have member : row ∈ deployment.serviceDeployments := by
        rw [split]
        simp
      apply or_internal_always.mpr
      apply always_op trivial
      intro answer final possible
      rcases possible_write possible with ⟨done, db, applied, same⟩ | ⟨-, message, failed⟩
      · rw [done, same]
        exact rows row member _ _ applied held
      · rw [failed]
        exact fun absurd => by cases absurd
  · rw [failed]
    exact fun absurd => by cases absurd

theorem save_row_status {db after : Database} {row : ServiceDeployment} {id : Uuid}
    (saved : db.saveServiceDeployment row = some after) : after.statusOf id = db.statusOf id := by
  rw [Database.save_service_deployment_shape saved]
  rfl

/-- Nothing is written after the record was persisted. -/
theorem refreshed_ensures {inv : Database → Prop} {publicHttp : Bool} {after : World}
    (held : inv after.db) :
    (if publicHttp then (liftM (refreshProxyRoutes server app.id) : Handler Unit)
      else Pure.pure ()).run.Ensures Possible
        (fun result last => result = .ok () → inv last.db) after := by
  split
  · have start : after.db = after.db := rfl
    have refreshed := exact_always
      (under_lift (refresh_proxy_routes_reading server app.id).under
        : (liftM (refreshProxyRoutes server app.id) : Handler Unit).run.Under _ _ _) start
    apply (refreshed.restrict (fun _ _ _ _ possible => possible) fun _ _ _ => trivial).mono
    intro result last kept _
    rw [kept.2]
    exact held
  · apply always_run_pure.mpr
    exact fun _ => held

/-- Which deployment is written does not matter for what is returned. -/
theorem confined_ensures {Value : Type} {id : Uuid} {program : Sys Value} {post : Value → Prop}
    (confined : Confined id program post) (world : World) :
    program.Ensures Possible (fun value _ => post value) world := by
  have anywhere : program.Under (fun _ _ => True) (fun _ => True) post :=
    confined.weaken fun _ _ => trivial
  exact anywhere.anywhere Possible world

theorem manager_ensures {picked : Deployment} (world : World) :
    (orInternal (ExceptT.mk (external .serviceManager))).run.Ensures Possible
      (fun result _ => OnOk (fun _ => True) result) world := by
  have confined : Confined picked.id (orInternal (ExceptT.mk (external .serviceManager))).run
      (OnOk fun _ => True) := manager_confined fun _ => trivial
  exact confined_ensures confined world

/-- Where not every replica runs, one is started before the rest is done. -/
theorem ensured_ensures (notAll : allRun service picked = false) (action : String)
    {rest : Deployment × Bool → Handler Unit} {done : World → Prop}
    (started : ∀ deployment, Ensured picked service (List.range (desiredReplicas service))
      (deployment, true) → ∀ second, (rest (deployment, true)).run.Ensures Possible
        (fun result after => result = .ok () → done after) second) : (do
      orInternal (ExceptT.mk (external .serviceManager))
      let found ← ensureReplicas action runtime app service (List.range (desiredReplicas service))
        picked
      rest found : Handler Unit).run.Ensures Possible
        (fun result after => result = .ok () → done after) world := by
  apply (@manager_ensures picked world).run_bind
  rintro (error | ready) first _
  · exact fun absurd => by cases absurd
  · apply always_run_bind.mpr
    have replicas : Confined picked.id _ _ := ensure_replicas_confined action runtime app
      service (List.range (desiredReplicas service)) picked
    apply (confined_ensures replicas first).mono
    rintro (error | ⟨deployment, changed⟩) second ensured
    · exact fun absurd => by cases absurd
    · have isChanged : changed = true := by
        by_contra unchanged
        have runs := all_run_iff.mpr (ensured.started.mp (Bool.eq_false_iff.mpr unchanged))
        rw [notAll] at runs
        cases runs
      rw [isChanged] at ensured ⊢
      exact started deployment ensured second

theorem start_picked_changes (notAll : allRun service picked = false) :
    (startPicked server runtime app service picked).run.Ensures Possible
      (fun result after => result = .ok () → after.db.statusOf picked.id = some .running)
        world := by
  unfold startPicked
  apply ensured_ensures notAll "start service"
  intro deployment ensured second
  dsimp only
  rw [if_pos rfl]
  apply always_run_lift_bind.mpr
  have startedAt : Confined picked.id _ _ := started_at_confined deployment
  apply (confined_ensures startedAt second).mono
  intro time third _
  apply always_run_lift_bind.mpr
  apply always_op trivial
  intro now fourth _
  apply always_run_bind.mpr
  have persisted := @persist_ensures
    { deployment with status := .running, startedAt := some time, finishedAt := some now }
    (fun db => db.statusOf picked.id = some .running)
    (fun db after saved => by
      rw [← ensured.sameId]
      exact Database.save_deployment_status_same saved)
    (fun row _ db after saved held => (save_row_status saved).trans held) fourth
  apply persisted.mono
  rintro (error | done) last held
  · exact fun absurd => by cases absurd
  · exact @refreshed_ensures server app (fun db => db.statusOf picked.id = some .running) _ last
      (held rfl)

theorem reconcile_picked_changes (notAll : allRun service picked = false) :
    (reconcilePicked runtime app service picked).run.Ensures Possible
      (fun result after => result = .ok () → after.db.statusOf picked.id = some .running)
        world := by
  unfold reconcilePicked
  apply ensured_ensures notAll "scale service"
  intro deployment ensured second
  apply always_run_lift_bind.mpr
  have stops : Confined picked.id _ _ := stop_surplus_confined service
    deployment.serviceDeployments
  apply (confined_ensures stops second).mono
  intro rows third each
  -- a started record is of a wanted replica, so it is not among those stopped
  have running : reconciledStatus { deployment with serviceDeployments := rows } service =
      .running := by
    obtain ⟨row, member, ofService, wanted, isRunning⟩ := ensured.running rfl
    have notSurplus : surplusRow service row = false := by
      unfold surplusRow
      have small := List.mem_range.mp wanted
      simp [small]
    have kept := kept_stopped each member notSurplus
    unfold reconciledStatus
    rw [if_pos]
    exact List.any_eq_true.mpr ⟨row, kept, by simp [ofService, isRunning]⟩
  dsimp only
  rw [Bool.true_or, if_pos rfl]
  apply always_run_lift_bind.mpr
  have startedAt : Confined picked.id _ _ := started_at_confined
    { deployment with serviceDeployments := rows }
  apply (confined_ensures startedAt third).mono
  intro time fourth _
  apply always_run_lift_bind.mpr
  apply always_op trivial
  intro now fifth _
  have persisted := @persist_ensures
    { deployment with
      serviceDeployments := rows
      status := reconciledStatus { deployment with serviceDeployments := rows } service
      startedAt := some time
      finishedAt := some now }
    (fun db => db.statusOf picked.id = some .running)
    (fun db after saved => by
      rw [← ensured.sameId, ← running]
      exact Database.save_deployment_status_same saved)
    (fun row _ db after saved held => (save_row_status saved).trans held) fifth
  exact persisted

def ClosedIn (id serviceId : Uuid) (db : Database) : Prop :=
  ∀ row ∈ db.rowsOf id, row.serviceId = serviceId → row.status = .stopped ∧ row.containerId = none

theorem stop_picked_changes
    (recorded : picked.serviceDeployments.any (fun row => row.serviceId = service.id) = true) :
    (stopPicked server app service picked).run.Ensures Possible
      (fun result after => result = .ok () → ClosedIn picked.id service.id after.db) world := by
  unfold stopPicked
  apply (@manager_ensures picked world).run_bind
  rintro (error | ready) first _
  · exact fun absurd => by cases absurd
  · apply always_run_bind.mpr
    have cron : Confined picked.id _ _ := stop_cron_confined app service
    apply (confined_ensures cron first).mono
    rintro (error | cronStopped) second _
    · exact fun absurd => by cases absurd
    · apply always_run_lift_bind.mpr
      have stops : Confined picked.id _ _ := stop_rows_confined service.id
        picked.serviceDeployments
      apply (confined_ensures stops second).mono
      intro rows third each
      have closed : ∀ row ∈ rows, row.serviceId = service.id →
          row.status = .stopped ∧ row.containerId = none := by
        intro row member ofService
        exact closed_stopped each member (decide_eq_true ofService)
      rw [recorded, Bool.or_true, if_pos rfl]
      apply always_run_bind.mpr
      have persisted := @persist_ensures { picked with serviceDeployments := rows }
        (ClosedIn picked.id service.id)
        (fun db after saved row stored ofService => by
          obtain ⟨source, member, same⟩ := Database.save_deployment_row_mem saved stored
          rw [same] at ofService ⊢
          exact closed source member ofService)
        (fun row member db after saved held other stored ofService => by
          have inTable := (List.mem_filter.mp stored)
          rw [Database.save_service_deployment_shape saved] at inTable
          rcases mem_upsert.mp inTable.1 with same | ⟨old, -⟩
          · rw [same] at ofService ⊢
            exact closed row member ofService
          · exact held other (List.mem_filter.mpr ⟨old, inTable.2⟩) ofService) third
      apply persisted.mono
      rintro (error | done) last held
      · exact fun absurd => by cases absurd
      · exact @refreshed_ensures server app (ClosedIn picked.id service.id) _ last (held rfl)

/-- An operation that has something to do changes the deployment it picks. -/
theorem perform_changes (primaryKey : (world.db.deployments.map (·.id)).Nodup)
    (change : ReplicaChange)
    (found : pickDeployment (storedDeployments world.db app.id) service = some picked)
    (inProgress : picked.status.inProgress = true)
    (something : somethingToDo service picked change = true) :
    (perform server runtime app service change).run.Ensures Possible
      (fun result after => result = .ok () → ¬InProgressKept world.db after.db) world := by
  obtain ⟨status, rows⟩ := pick_stored primaryKey found
  have running : ∀ after : Database, after.statusOf picked.id = some .running →
      ¬InProgressKept world.db after := by
    intro after isRunning kept
    have sameRow := (kept picked.id picked.status status inProgress).1
    unfold Database.statusOf at isRunning status
    rw [sameRow, status] at isRunning
    rw [Option.some.inj isRunning] at inProgress
    cases inProgress
  apply perform_always change
  · intro result after _ ended isOk
    rcases ended isOk with ⟨notStop, isCron⟩ | absent
    · cases change with
      | stop => exact absurd rfl notStop
      | start => simp [somethingToDo, isCron] at something
      | scale => simp [somethingToDo, isCron] at something
    · rw [found] at absent
      cases absent
  · intro same sameFound _ after sameDb
    rw [found] at sameFound
    cases sameFound
    cases change with
    | start =>
        have notAll : allRun service picked = false := by
          simpa using (Bool.and_eq_true_iff.mp something).2
        exact (start_picked_changes notAll).mono fun result last held isOk =>
          running last.db (held isOk)
    | scale =>
        have notAll : allRun service picked = false := by
          simpa using (Bool.and_eq_true_iff.mp something).2
        exact (reconcile_picked_changes notAll).mono fun result last held isOk =>
          running last.db (held isOk)
    | stop =>
        obtain ⟨row, member, isOpen⟩ := List.any_eq_true.mp something
        obtain ⟨ofService, more⟩ := Bool.and_eq_true_iff.mp isOpen
        have recorded : picked.serviceDeployments.any
            (fun row => row.serviceId = service.id) = true :=
          List.any_eq_true.mpr ⟨row, member, ofService⟩
        apply (stop_picked_changes recorded).mono
        intro result last held isOk kept
        have sameRows := (kept picked.id picked.status status inProgress).2
        have stored : row ∈ last.db.rowsOf picked.id := by
          rw [sameRows]
          exact (rows row).mp member
        have closed := held isOk row stored (of_decide_eq_true ofService)
        rw [closed.1, closed.2] at more
        simp at more

/-- Start, stop and scale keep every deployment in progress as long as the one they pick is not
in progress or they have nothing to do, and they change the pick in every successful run when
it is in progress and there is something to do. -/
theorem in_progress_kept (server : Server) (runtime : Runtime) (app : App)
    (service : ContainerService) (world : World)
    (primaryKey : (world.db.deployments.map (·.id)).Nodup) (change : ReplicaChange) :
    ((∀ picked, pickDeployment (storedDeployments world.db app.id) service = some picked →
        picked.status.inProgress = false ∨ nothingToDo service picked change = true) →
      ∀ result final, Runs Possible (perform server runtime app service change).run world result
        final → InProgressKept world.db final.db) ∧
    ∀ picked, pickDeployment (storedDeployments world.db app.id) service = some picked →
      picked.status.inProgress = true → somethingToDo service picked change = true →
        ∀ final, Runs Possible (perform server runtime app service change).run world (.ok ())
          final → ¬InProgressKept world.db final.db := by
  refine ⟨fun settled result final run => ?_, fun picked found inProgress something final run => ?_⟩
  · exact (perform_kept primaryKey change settled).runs run
  · exact (perform_changes primaryKey change found inProgress something).runs run rfl

end Kept

/-- The only deployment waits in the queue; the configured image makes the search take it. -/
theorem pending_deployment_started :
    ∃ final, Runs Possible (perform demoServer demoRuntime demoApp demoService .start).run demoWorld
        (.ok ()) final ∧
      demoWorld.db.statusOf demoDeployment.id = some .pending ∧
      final.db.statusOf demoDeployment.id = some .running ∧
      ¬InProgressKept demoWorld.db final.db := by
  have ran : (fun outcome : Except ApiError Unit × World =>
      (outcome.1.isOk, outcome.2.db.statusOf demoDeployment.id))
        ((perform demoServer demoRuntime demoApp demoService .start).run.run system calm demoWorld) =
          (true, some .running) := by decide +kernel
  have run := runs_run system calm calm_admitted
    (perform demoServer demoRuntime demoApp demoService .start).run demoWorld
  generalize (perform demoServer demoRuntime demoApp demoService .start).run.run system calm
    demoWorld = outcome at ran run
  obtain ⟨result, final⟩ := outcome
  have pending : demoWorld.db.statusOf demoDeployment.id = some .pending := by decide
  have running : final.db.statusOf demoDeployment.id = some .running := congrArg Prod.snd ran
  cases result with
  | error error => cases congrArg Prod.fst ran
  | ok done =>
      refine ⟨final, run, pending, running, fun kept => ?_⟩
      have sameRow := (kept demoDeployment.id .pending pending rfl).1
      unfold Database.statusOf at running pending
      rw [sameRow, pending] at running
      cases running

def demoBesideRunning : World :=
  { demoWorld with db := { demoWorld.db with
      deployments := [demoDeployment, { demoDeployment with id := ⟨11⟩, status := .running }] } }

theorem running_deployment_started :
    ∃ result final, Runs Possible (perform demoServer demoRuntime demoApp demoService .start).run
        demoBesideRunning result final ∧ InProgressKept demoBesideRunning.db final.db := by
  have run := runs_run system calm calm_admitted
    (perform demoServer demoRuntime demoApp demoService .start).run demoBesideRunning
  refine ⟨_, _, run, ?_⟩
  apply (in_progress_kept demoServer demoRuntime demoApp demoService demoBesideRunning (by decide)
    .start).1 _ _ _ run
  intro picked found
  have settled : (pickDeployment (storedDeployments demoBesideRunning.db demoApp.id)
      demoService).all (fun picked => picked.status.inProgress = false) = true := by decide +kernel
  rw [found] at settled
  exact Or.inl (of_decide_eq_true settled)

end Containr.Api.Services
