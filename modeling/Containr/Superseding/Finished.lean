import Containr.Superseding.Final

/-!
# Superseding and a finished rollout

`supersede_stale_deployments` decides from the rows it lists and writes its clones
back later. A rollout that the worker finishes in between is undone by the clone;
one that it finishes while every call still has its listing ahead is left alone.
-/

namespace Containr.Superseding

open Containr.Effect Containr.Effect.Program Containr.Api Containr.Worker

def Lists : Op → Prop
  | .query (.deploymentsByApp _) => True
  | _ => False

def ListsRunning (id : Uuid) : (op : Op) → op.Answer → Prop
  | .query (.deploymentsByApp _), answer =>
      ∀ rows : List Deployment, answer = .ok rows → ∀ row ∈ rows, row.id = id → row.status = .running
  | _, _ => True

def callerRule (id : Uuid) : Discipline Effects where
  reads := Lists
  writes := Saves id
  apart := by
    intro op lists saves
    unfold Saves at saves
    split at saves
    · exact lists
    · exact saves
  credible := fun _ _ => True
  promised := ListsRunning id
  sound := fun _ => False

def Joined (rows : List Deployment) (result : Except String (List Deployment)) : Prop :=
  ∀ listed, result = .ok listed → ∀ deployment ∈ listed, ∃ row ∈ rows, ∃ children,
    deployment = { row with serviceDeployments := children }

theorem with_service_deployments_joined {expects : (op : Op) → op.Answer → Prop}
    {allowed : Op → Prop} (children : ∀ id, allowed (.query (.serviceDeployments id)))
    (rows : List Deployment) :
    @Under Effects _ expects allowed (Store.withServiceDeployments rows).run (Joined rows) := by
  induction rows with
  | nil =>
      apply under_pure.mpr
      intro listed same deployment member
      cases same
      exact absurd member List.not_mem_nil
  | cons row rest ih =>
      unfold Store.withServiceDeployments
      apply under_run_bind.mpr
      apply under_op (children row.id)
      intro answer _
      rcases answer with message | found
      · intro listed absurd
        cases absurd
      · apply ih.run_bind
        intro result joined
        rcases result with message | others
        · intro listed absurd
          cases absurd
        · apply under_pure.mpr
          intro listed same deployment member
          cases same
          rcases List.mem_cons.mp member with rfl | later
          · exact ⟨row, List.mem_cons_self, found, rfl⟩
          · obtain ⟨source, inRest, shape⟩ := joined others rfl deployment later
            exact ⟨source, List.mem_cons_of_mem _ inRest, shape⟩

theorem or_internal_bind {Value Other : Type} (program : Fallible Value)
    (continuation : Except ApiError Value → Sys Other) :
    (orInternal program).run.bind continuation = program.run.bind fun result =>
      continuation (match result with
        | .ok value => .ok value
        | .error _ => .error internalError) :=
  bind_assoc _ _ _

def Apart (id : Uuid) (op : Op) : Prop := ¬Lists op ∧ ¬Saves id op

theorem supersede_apart {id replacementId : Uuid} {deployment : Deployment}
    (different : deployment.id ≠ id) :
    (supersede replacementId deployment).run.Calls (Apart id) := by
  apply supersede_calls
  · exact ⟨fun lists => lists, fun saves => saves⟩
  · exact fun _ => ⟨fun lists => lists, fun saves => saves⟩
  · exact fun _ _ => ⟨fun lists => lists, different⟩
  · exact fun _ => ⟨fun lists => lists, fun saves => saves⟩

variable {replacementId : Uuid} {deployment : Deployment}

theorem supersede_lists_nothing :
    (supersede replacementId deployment).run.Calls fun op => ¬Lists op := by
  apply supersede_calls
  · exact fun lists => lists
  · exact fun _ lists => lists
  · exact fun _ _ lists => lists
  · exact fun _ lists => lists

theorem stale_not_running (stale : isStale replacementId deployment = true) :
    deployment.status ≠ .running := by
  intro running
  simp [isStale, running, DeploymentStatus.inProgress] at stale

variable {id : Uuid}

theorem supersede_call_disciplined (appId replacementId : Uuid) :
    (ignore (supersedeStaleDeployments appId replacementId)).Disciplined (callerRule id) := by
  unfold ignore supersedeStaleDeployments
  rw [run_bind_bind, or_internal_bind, Store.listDeploymentsByApp, run_bind_bind,
    Store.query_bind]
  apply disciplined_read
  · exact trivial
  · intro answer _ promised
    rcases answer with message | rows
    · exact guarded_pure _
    dsimp only
    apply guarded_bind (Joined rows)
    · apply with_service_deployments_joined
      exact fun _ saves => saves.elim
    intro result joined
    rcases result with message | listed
    · exact guarded_pure _
    dsimp only
    apply Calls.guarded
    apply Calls.bind
    · apply calls_for_each
      intro deployment member
      obtain ⟨inListed, stale⟩ := List.mem_filter.mp member
      obtain ⟨row, inRows, children, rfl⟩ := joined listed rfl deployment inListed
      have different : row.id ≠ id := by
        intro same
        exact stale_not_running stale (promised rows rfl row inRows same)
      exact (@supersede_apart id replacementId { row with serviceDeployments := children }
        different).mono fun op apart => apart.2
    · intro _
      exact calls_pure _
  · intro answer _
    apply disciplined_of_no_reads
    rcases answer with message | rows
    · exact calls_pure _
    dsimp only
    apply Calls.bind
    · exact with_service_deployments_calls (fun _ lists => lists) rows
    intro result
    rcases result with message | listed
    · exact calls_pure _
    dsimp only
    apply Calls.bind
    · exact calls_for_each _ fun deployment _ => supersede_lists_nothing
    · intro _
      exact calls_pure _

def SavesRunning (id : Uuid) (op : Op) : Prop :=
  ∀ deployment, op = .write (.saveDeployment deployment) → deployment.id = id →
    deployment.status = .running

theorem saves_running_of_silent (op : Op) (silent : ¬Loads id op ∧ ¬Saves id op) :
    SavesRunning id op := by
  rintro deployment rfl same
  exact absurd same silent.2

theorem finish_rollout_saves_running {plan : Plan} {rollout : Rollout} {isRollback : Bool}
    (others : ∀ previous ∈ plan.previous, previous.id ≠ id) :
    (finishRollout plan rollout isRollback).run.Under RowsMatch (SavesRunning id)
      fun _ => True := by
  have silent : ∀ {Value : Type} {program : Sys Value}, program.Calls Op.Quiet →
      program.Under RowsMatch (SavesRunning id) fun _ => True := by
    intro Value program quiet
    exact Calls.under ((Calls.silent quiet).mono saves_running_of_silent)
  unfold finishRollout
  apply (Calls.under ((restore_silent plan.app isRollback).mono saves_running_of_silent)).run_bind
  intro restored _
  rcases restored with message | _
  · trivial
  apply (silent (query_quiet (by simp))).run_bind
  intro existing _
  rcases existing with message | existing
  · trivial
  apply (silent utc_now_quiet).run_lift_bind
  intro startedAt _
  apply (silent utc_now_quiet).run_lift_bind
  intro finishedAt _
  apply under_run_bind.mpr
  apply under_op
  · intro deployment same _
    cases same
    rfl
  intro saved _
  rcases saved with message | _
  · trivial
  apply (silent (send_proxy_refresh_quiet _ _)).run_lift_bind
  intro _ _
  apply (Calls.under (((sweep_old_calls _ _).mono within_silent).mono
    saves_running_of_silent)).run_lift_bind
  intro _ _
  apply under_for_each
  intro previous member
  exact (mark_stopped_silent (others previous member)).weaken saves_running_of_silent

theorem deploy_services_saves_running (runtime : Runtime) (app : App) (deployment : Deployment)
    (networkName : String) (images : ServiceImages) (sharedEnv : List (String × String))
    (strategy : RolloutStrategy) (isRollback : Bool) :
    (deployServices runtime app deployment networkName images sharedEnv strategy
      isRollback).run.Under RowsMatch (SavesRunning deployment.id) fun _ => True := by
  unfold deployServices
  apply (Calls.under ((Calls.silent (sort_services_quiet _)).mono saves_running_of_silent)).run_bind
  intro sorted _
  rcases sorted with message | sorted
  · trivial
  apply (previous_running_others fun op quiet =>
    saves_running_of_silent op (within_silent op quiet)).run_bind
  intro previous others
  rcases previous with message | previous
  · trivial
  apply (Calls.under (((rollout_services_calls _ sorted).mono within_silent).mono
    saves_running_of_silent)).run_lift_bind
  rintro ⟨outcome, rollout⟩ _
  rcases outcome with message | _
  · dsimp only
    apply under_run_lift_bind.mpr
    have undone := undo_tracked rollout
    apply (Calls.under ((undone.mono within_silent).mono saves_running_of_silent)).mono
    intro _ _
    exact under_pure.mpr trivial
  · exact finish_rollout_saves_running (others previous rfl)

/-- A step takes nothing from a finished rollout: the deployment stays running
and keeps each of its service deployments. -/
def Kept (id : Uuid) (before after : Database) : Prop :=
  (before.statusOf id = some .running → after.statusOf id = some .running) ∧
    ∀ row ∈ before.rowsOf id, ∃ kept ∈ after.rowsOf id, Database.rowKey kept = Database.rowKey row

theorem kept_rfl (id : Uuid) (db : Database) : Kept id db db :=
  ⟨fun running => running, fun row member => ⟨row, member, rfl⟩⟩

theorem kept_of_rows {before after : Database} (status : after.statusOf id = before.statusOf id)
    (rows : after.rowsOf id = before.rowsOf id) : Kept id before after := by
  constructor
  · rw [status]
    exact fun running => running
  · intro row member
    exact ⟨row, rows ▸ member, rfl⟩

theorem kept_of_record {before after : Database} {record : ServiceDeployment}
    (saved : before.saveServiceDeployment record = some after) : Kept id before after := by
  rw [Database.save_service_deployment_shape saved]
  refine ⟨fun running => running, fun row member => ?_⟩
  obtain ⟨inTable, owned⟩ := List.mem_filter.mp member
  by_cases same : Database.rowKey row = Database.rowKey record
  · have ownedToo : record.deploymentId = id := by
      have sameOwner : row.deploymentId = record.deploymentId := congrArg Prod.snd same
      rw [← sameOwner]
      simpa using owned
    refine ⟨record, List.mem_filter.mpr ⟨?_, by simpa using ownedToo⟩, same.symm⟩
    exact mem_upsert.mpr (Or.inl rfl)
  · refine ⟨row, List.mem_filter.mpr ⟨?_, owned⟩, rfl⟩
    exact mem_upsert.mpr (Or.inr ⟨inTable, same⟩)

variable {op : Op}

theorem kept_of_only_stops {before after : World} {answer : op.Answer} (stops : OnlyStops op)
    (other : ¬Saves id op) (possible : Possible op before answer after) :
    Kept id before.db after.db := by
  rcases possible_written possible with same | ⟨change, db, rfl, applied, rfl⟩
  · rw [same]
    exact kept_rfl id _
  · have status := status_kept_by_write (keeps_of_only_stops stops other) applied
    cases change with
    | saveDeployment deployment =>
        exact kept_of_rows status
          (Database.save_deployment_rows_other applied fun same => other same.symm)
    | saveServiceDeployment record => exact kept_of_record applied
    | appendDeploymentLog deployment line =>
        apply kept_of_rows status
        rw [Database.append_deployment_log_shape applied]
        rfl
    | saveApp app => exact stops.elim
    | deleteApp app => exact stops.elim
    | deleteDeployment deployment => exact stops.elim

def Deletes : Op → Prop
  | .write (.deleteApp _) | .write (.deleteDeployment _) => True
  | _ => False

theorem only_stops_keeps (stops : OnlyStops op) : ¬Deletes op := by
  intro deletes
  unfold Deletes at deletes
  split at deletes
  · exact stops
  · exact stops
  · exact deletes

theorem by_worker_keeps (byWorker : ByWorker op) : ¬Deletes op := by
  intro deletes
  unfold Deletes at deletes
  split at deletes
  · exact byWorker
  · exact byWorker
  · exact deletes

section Runs

variable {Caller : Type}

/-- The worker (`none`) deploying one deployment, beside any number of supersede
calls. -/
def finishing (rollout : Fallible Unit) (appOf replacementOf : Caller → Uuid) (world : World) :
    Pool Effects (Option Caller) Unit World where
  threads
    | none => ignore rollout
    | some caller => ignore (supersedeStaleDeployments (appOf caller) (replacementOf caller))
  state := world

/-- The worker has persisted the deployment as running. -/
def Finished (id : Uuid) (history : List (Event Effects (Option Caller))) : Prop :=
  ∃ event ∈ history, event.thread = none ∧ savedStatus id event.op event.answer = some .running

/-- The worker saves the deployment only while every call has a listing ahead of
its next save of it. -/
def SavedBeforeListing (id : Uuid) : Pool.Restriction Effects (Option Caller) Unit World :=
  fun _ pool event => event.thread = none → Saves id event.op →
    ∀ caller, (pool.threads (some caller)).ReadsFirst Lists (Saves id)

/-- Every row of the deployment says `Running`. -/
def StoredRunning (id : Uuid) (db : Database) : Prop :=
  ∀ row ∈ db.deployments, row.id = id → row.status = .running

structure FinishInvariant (id : Uuid) (history : List (Event Effects (Option Caller)))
    (pool : Pool Effects (Option Caller) Unit World) : Prop where
  calls : ∀ caller, (pool.threads (some caller)).Calls OnlyStops
  disciplined : ∀ caller, (pool.threads (some caller)).Disciplined (callerRule id)
  worker : (pool.threads none).Under RowsMatch (SavesRunning id) fun _ => True
  byWorker : (pool.threads none).Calls ByWorker
  finished : Finished id history → StoredRunning id pool.state.db ∧
    ∀ caller, (pool.threads (some caller)).Guarded (callerRule id)

variable {op : Op} {answer : op.Answer}

theorem lists_running {id : Uuid} {before after : World} (stored : StoredRunning id before.db)
    (possible : Possible op before answer after) : ListsRunning id op answer := by
  cases op with
  | query wanted =>
      cases wanted with
      | deploymentsByApp appId =>
          intro rows same row member sameId
          rcases (possible_query possible).2 with read | ⟨message, failed⟩
          · have listed : before.db.deploymentRowsByApp appId = rows :=
              Except.ok.inj (read.symm.trans same)
            rw [← listed, Database.deploymentRowsByApp, List.mem_insertionSort] at member
            exact stored row (List.mem_filter.mp member).1 sameId
          · rw [failed] at same
            cases same
      | _ => trivial
  | _ => trivial

/-- A write that saves the deployment as running, or another one, keeps its rows
running. -/
theorem stored_running_kept {id : Uuid} {before after : World} (noDelete : ¬Deletes op)
    (saves : SavesRunning id op) (stored : StoredRunning id before.db)
    (possible : Possible op before answer after) : StoredRunning id after.db := by
  rcases possible_written possible with same | ⟨change, db, rfl, applied, rfl⟩
  · rw [same]
    exact stored
  · intro row member same
    cases change with
    | saveDeployment deployment =>
        obtain ⟨-, -, deployments, -⟩ := Database.save_deployment_shape applied
        dsimp only at member
        rw [deployments] at member
        rcases mem_upsert.mp member with rfl | ⟨inTable, -⟩
        · exact saves deployment rfl same
        · exact stored row inTable same
    | saveServiceDeployment record =>
        rw [Database.save_service_deployment_shape applied] at member
        exact stored row member same
    | appendDeploymentLog deployment line =>
        rw [Database.append_deployment_log_shape applied] at member
        exact stored row member same
    | saveApp app => exact stored row (Database.save_app_deployments applied ▸ member) same
    | deleteApp app => exact absurd trivial noDelete
    | deleteDeployment deployment => exact absurd trivial noDelete

theorem stored_running_saved {id : Uuid} {before after : World}
    (saved : savedStatus id op answer = some .running) (possible : Possible op before answer after)
    : StoredRunning id after.db := by
  unfold savedStatus at saved
  split at saved
  · split_ifs at saved with sameId
    rcases possible_write possible with ⟨-, db, applied, rfl⟩ | ⟨-, message, failed⟩
    · intro row member same
      obtain ⟨-, -, deployments, -⟩ := Database.save_deployment_shape applied
      dsimp only at member
      rw [deployments] at member
      rcases mem_upsert.mp member with rfl | ⟨-, different⟩
      · exact Option.some.inj saved
      · exact absurd (same.trans sameId.symm) different
    · cases failed
  · cases saved

variable {id : Uuid} {history : List (Event Effects (Option Caller))}
  {pool after : Pool Effects (Option Caller) Unit World} {event : Event Effects (Option Caller)}

theorem finished_append (finished : Finished id (history ++ [event])) :
    Finished id history ∨
      event.thread = none ∧ savedStatus id event.op event.answer = some .running := by
  obtain ⟨found, member, byWorker, saved⟩ := finished
  rcases List.mem_append.mp member with past | last
  · exact Or.inl ⟨found, past, byWorker, saved⟩
  · rw [List.mem_singleton] at last
    subst last
    exact Or.inr ⟨byWorker, saved⟩

variable [DecidableEq Caller]

/-- After the worker's save a call neither saves the deployment nor drops a row. -/
theorem call_keeps (inv : FinishInvariant id history pool)
    (taken : Pool.Step Possible pool event after) (finished : Finished id history)
    (byCaller : event.thread ≠ none) :
    OnlyStops event.op ∧ ¬Saves id event.op ∧
      Possible event.op pool.state event.answer after.state := by
  obtain ⟨next, ready, possible, -⟩ := taken.own
  obtain ⟨caller, isCaller⟩ := Option.ne_none_iff_exists'.mp byCaller
  have calls := inv.calls caller
  have guarded := (inv.finished finished).2 caller
  rw [← isCaller, ready] at calls guarded
  exact ⟨calls.head, (guarded_call.mp guarded).1, possible⟩

theorem call_step (inv : FinishInvariant id history pool)
    (taken : Pool.Step Possible pool event after) (byCaller : event.thread ≠ none) :
    FinishInvariant id (history ++ [event]) after := by
  obtain ⟨next, ready, possible, moved⟩ := taken.own
  have workerSame : after.threads none = pool.threads none := taken.other (Ne.symm byCaller)
  constructor
  · intro other
    by_cases same : some other = event.thread
    · have calls := inv.calls other
      rw [same, ready] at calls
      rw [same, moved]
      exact calls.next event.answer
    · rw [taken.other same]
      exact inv.calls other
  · intro other
    by_cases same : some other = event.thread
    · have disciplined := inv.disciplined other
      rw [same, ready] at disciplined
      rw [same, moved]
      exact disciplined.next trivial
    · rw [taken.other same]
      exact inv.disciplined other
  · rw [workerSame]
    exact inv.worker
  · rw [workerSame]
    exact inv.byWorker
  · intro finished
    rcases finished_append finished with past | ⟨byWorker, -⟩
    · obtain ⟨stored, guarded⟩ := inv.finished past
      obtain ⟨stops, other, -⟩ := call_keeps inv taken past byCaller
      have keeps : SavesRunning id event.op := by
        intro deployment isSave same
        rw [isSave] at other
        exact absurd same other
      refine ⟨stored_running_kept (only_stops_keeps stops) keeps stored possible, ?_⟩
      intro caller
      by_cases same : some caller = event.thread
      · have own := guarded caller
        rw [same, ready] at own
        rw [same, moved]
        exact (guarded_call.mp own).2 event.answer trivial (lists_running stored possible)
      · rw [taken.other same]
        exact guarded caller
    · exact absurd byWorker byCaller

theorem deploying_step (inv : FinishInvariant id history pool)
    (taken : Pool.Step Possible pool event after) (met : SavedBeforeListing id history pool event)
    (byWorker : event.thread = none) : FinishInvariant id (history ++ [event]) after := by
  obtain ⟨next, ready, possible, moved⟩ := taken.own
  rw [byWorker] at ready moved
  have worker := inv.worker
  have calls := inv.byWorker
  rw [ready] at worker calls
  obtain ⟨saves, rest⟩ := under_call.mp worker
  have callerSame : ∀ caller, after.threads (some caller) = pool.threads (some caller) := by
    intro caller
    apply taken.other
    rw [byWorker]
    exact Option.some_ne_none caller
  constructor
  · intro caller
    rw [callerSame]
    exact inv.calls caller
  · intro caller
    rw [callerSame]
    exact inv.disciplined caller
  · rw [moved]
    exact rest event.answer (rows_match possible)
  · rw [moved]
    exact calls.next event.answer
  · intro finished
    rcases finished_append finished with past | ⟨-, saved⟩
    · obtain ⟨stored, guarded⟩ := inv.finished past
      refine ⟨stored_running_kept (by_worker_keeps calls.head) saves stored possible, fun caller => ?_⟩
      rw [callerSame]
      exact guarded caller
    · obtain ⟨deployment, isSave, same, -⟩ := saves_of_saved_status saved
      have isOwn : Saves id event.op := by
        rw [isSave]
        exact same
      refine ⟨stored_running_saved saved possible, fun caller => ?_⟩
      rw [callerSame]
      exact (inv.disciplined caller).guarded (met byWorker isOwn caller)

/-- A finished rollout is left alone in every run in which the worker finishes it
while each call still has to list. -/
theorem finished_rollout_kept (runtime : Runtime) (app : App) (deployment : Deployment)
    (networkName : String) (images : ServiceImages) (sharedEnv : List (String × String))
    (strategy : RolloutStrategy) (isRollback : Bool) (appOf replacementOf : Caller → Uuid)
    (world : World)
    (trace : Pool.Trace Possible (SavedBeforeListing deployment.id)
      (finishing (deployServices runtime app deployment networkName images sharedEnv strategy
        isRollback) appOf replacementOf world) history pool)
    (finished : Finished deployment.id history) (taken : Pool.Step Possible pool event after)
    (byCaller : event.thread ≠ none) : Kept deployment.id pool.state.db after.state.db := by
  have inv : FinishInvariant deployment.id history pool := by
    apply trace.invariant
    · constructor
      · exact fun caller => ignore_calls (supersede_stale_deployments_calls _ _)
      · exact fun caller => supersede_call_disciplined _ _
      · apply (deploy_services_saves_running _ _ _ _ _ _ _ _).bind
        intro _ _
        exact under_pure.mpr trivial
      · apply ignore_calls
        exact (deploy_services_in_job _ _ _ _ _ _ _ _).mono by_worker_of_in_job
      · rintro ⟨event, member, -⟩
        exact absurd member List.not_mem_nil
    · intro history pool event after _ inv taken met
      by_cases byWorker : event.thread = none
      · exact deploying_step inv taken met byWorker
      · exact call_step inv taken byWorker
  obtain ⟨stops, other, possible⟩ := call_keeps inv taken finished byCaller
  exact kept_of_only_stops stops other possible

end Runs

instance {Caller : Type} [DecidableEq Caller] (id : Uuid)
    (history : List (Event Effects (Option Caller))) : Decidable (Finished id history) :=
  inferInstanceAs (Decidable (∃ event ∈ history, event.thread = none ∧
    savedStatus id event.op event.answer = some .running))

instance (id : Uuid) (before after : Database) : Decidable (Kept id before after) :=
  inferInstanceAs (Decidable
    ((before.statusOf id = some .running → after.statusOf id = some .running) ∧
      ∀ row ∈ before.rowsOf id, ∃ kept ∈ after.rowsOf id,
        Database.rowKey kept = Database.rowKey row))

def demoImages : ServiceImages := [(⟨2⟩, "nginx:1")]

/-- Another deployment of the app waits behind the one that is finished. -/
def demoFinish : Pool Effects (Option Unit) Unit World :=
  finishing (deployServices demoRuntime demoApp demoDeployment demoApp.networkName demoImages []
    .startFirst false) (fun _ => ⟨1⟩) (fun _ => ⟨11⟩)
    { demoWorld with
      db := { demoWorld.db with
        deployments := [demoDeployment, { demoDeployment with id := ⟨12⟩ }] } }

/-- The worker finishes before the call begins; the call then marks the other deployment. -/
theorem finished_rollout_kept_by_late_call :
    ∃ history pool event after,
      Pool.Trace Possible (SavedBeforeListing demoDeployment.id) demoFinish history pool ∧
        Finished demoDeployment.id history ∧ Pool.Step Possible pool event after ∧
        event.thread ≠ none ∧ Kept demoDeployment.id pool.state.db after.state.db ∧
        (pool.state.db.statusOf ⟨12⟩, after.state.db.statusOf ⟨12⟩) =
          (some .pending, some .stopped) := by
  have runs : ((Pool.execute system (turns [(none, 20)]) demoFinish).bind fun first =>
      (Pool.execute system (turns [(some (), 5)]) first.2).bind fun second =>
        (Pool.execute system [(some (), calm)] second.2).map fun last =>
          (decide (Finished demoDeployment.id first.1), second.2.state.db.statusOf ⟨12⟩,
            last.2.state.db.statusOf ⟨12⟩)) = some (true, some .pending, some .stopped) := by
    decide +kernel
  obtain ⟨⟨worked, finishedPool⟩, worker, rest⟩ := Option.bind_eq_some_iff.mp runs
  obtain ⟨⟨listed, pool⟩, caller, ends⟩ := Option.bind_eq_some_iff.mp rest
  obtain ⟨⟨events, after⟩, called, facts⟩ := Option.map_eq_some_iff.mp ends
  obtain ⟨finished, marked⟩ := Prod.mk.inj facts
  obtain ⟨event, thread, taken⟩ := Pool.Step.of_execute calm_admitted called
  have begun : Pool.Trace Possible (SavedBeforeListing demoDeployment.id) demoFinish
      ([] ++ worked) finishedPool ∧
        finishedPool.threads (some ()) = demoFinish.threads (some ()) := by
    apply Pool.Trace.execute (fun pool => pool.threads (some ()) = demoFinish.threads (some ()))
      turns_admitted ?_ Pool.Trace.start rfl worker
    intro entry member history pool event after thread untouched taken
    have notCaller : some () ≠ event.thread := by
      rw [thread, turns_thread member]
      exact Option.some_ne_none ()
    refine ⟨fun _ _ _ => ?_, (taken.other notCaller).trans untouched⟩
    rw [untouched]
    exact (reads_first_call _ _).mpr (Or.inl trivial)
  have reached : Pool.Trace Possible (SavedBeforeListing demoDeployment.id) demoFinish
      ([] ++ worked ++ listed) pool ∧ True := by
    apply Pool.Trace.execute (fun _ => True) turns_admitted ?_ begun.1 trivial caller
    intro entry member history pool event after thread _ _
    refine ⟨fun byWorker => ?_, trivial⟩
    rw [thread, turns_thread member] at byWorker
    cases byWorker
  have byCaller : event.thread ≠ none := by
    rw [thread]
    exact Option.some_ne_none ()
  have done : Finished demoDeployment.id ([] ++ worked ++ listed) := by
    obtain ⟨saved, member, was⟩ : Finished demoDeployment.id worked := of_decide_eq_true finished
    exact ⟨saved, List.mem_append_left _ member, was⟩
  exact ⟨_, pool, event, after, reached.1, done, taken, byCaller,
    finished_rollout_kept demoRuntime demoApp demoDeployment demoApp.networkName demoImages []
      .startFirst false (fun _ => ⟨1⟩) (fun _ => ⟨11⟩) _ reached.1 done taken byCaller, marked⟩

/-- The call lists the deployment as pending, the worker finishes it, and the call
writes its clone back. -/
theorem finished_rollout_overwritten :
    ∃ history pool event after,
      Pool.Trace Possible (fun _ _ _ => True) demoFinish history pool ∧
        Finished demoDeployment.id history ∧ Pool.Step Possible pool event after ∧
        event.thread ≠ none ∧ ¬Kept demoDeployment.id pool.state.db after.state.db := by
  have runs : ((Pool.execute system (turns [(some (), 3), (none, 20), (some (), 2)])
      demoFinish).bind fun first => (Pool.execute system [(some (), calm)] first.2).map fun last =>
        decide (Finished demoDeployment.id first.1 ∧
          ¬Kept demoDeployment.id first.2.state.db last.2.state.db)) = some true := by
    decide +kernel
  obtain ⟨⟨history, pool⟩, worked, rest⟩ := Option.bind_eq_some_iff.mp runs
  obtain ⟨⟨events, after⟩, called, lost⟩ := Option.map_eq_some_iff.mp rest
  obtain ⟨event, thread, taken⟩ := Pool.Step.of_execute calm_admitted called
  obtain ⟨finished, notKept⟩ := of_decide_eq_true lost
  refine ⟨history, pool, event, after, ?_, finished, taken, ?_, notKept⟩
  · exact Pool.Trace.of_execute turns_admitted worked
  · rw [thread]
    exact Option.some_ne_none ()

end Containr.Superseding
