import Containr.Api.Deployments
import Containr.Steps
import Containr.Superseding.Worker

/-!
# Superseding and the worker

The worker processes one job while any number of `supersede_stale_deployments`
calls run. A superseded deployment stays stopped in every run in which its record
is marked only at a point at which the worker loads it before it saves it again.
At any other point the worker overwrites the mark with its own copy.
-/

namespace Containr.Superseding

open Containr.Effect Containr.Effect.Program Containr.Api Containr.Worker

def OnlyStops : Op → Prop
  | .write (.saveDeployment deployment) => deployment.status = .stopped
  | .write (.saveServiceDeployment _) | .write (.appendDeploymentLog _ _) => True
  | .write _ => False
  | _ => True

variable {allowed : Op → Prop}

theorem stop_rows_calls (clock : allowed .utcNow) (rows : List ServiceDeployment) :
    (stopRows rows).Calls allowed := by
  induction rows with
  | nil => exact calls_pure _
  | cons row rest ih =>
      apply Calls.bind
      · unfold stopRow
        split
        · apply Calls.bind
          · exact op_calls clock
          intro now
          exact calls_pure _
        · exact calls_pure _
      intro stopped
      apply Calls.bind
      · exact ih
      intro others
      exact calls_pure _

theorem list_deployments_calls (quiet : ∀ op : Op, op.Quiet → allowed op) (appId : Uuid) :
    (orInternal (Store.listDeploymentsByApp appId)).run.Calls allowed :=
  or_internal_calls ((list_deployments_quiet appId).mono quiet)

theorem only_stops_of_quiet (op : Op) (quiet : op.Quiet) : OnlyStops op := by
  cases op with
  | write change =>
      cases change with
      | saveDeployment deployment => exact quiet.elim
      | saveApp app => exact quiet
      | deleteApp id => exact quiet
      | deleteDeployment id => exact quiet
      | saveServiceDeployment row => trivial
      | appendDeploymentLog id line => trivial
  | _ => trivial

theorem supersede_calls {deployment : Deployment} (replacementId : Uuid) (clock : allowed .utcNow)
    (log : ∀ line, allowed (.write (.appendDeploymentLog deployment.id line)))
    (save : ∀ now rows, allowed (.write (.saveDeployment (stoppedClone deployment now rows))))
    (record : ∀ row, allowed (.write (.saveServiceDeployment row))) :
    (supersede replacementId deployment).run.Calls allowed := by
  unfold supersede
  apply Calls.run_lift_bind
  · exact op_calls clock
  intro now
  apply Calls.run_lift_bind
  · exact stop_rows_calls clock _
  intro rows
  apply Calls.run_bind
  · exact or_internal_calls (op_calls (log _))
  intro _
  apply Calls.run_bind
  · exact or_internal_calls (op_calls (save now rows))
  intro _
  apply calls_for_each
  intro row _
  exact or_internal_calls (op_calls (record row))

theorem supersede_stale_deployments_calls (appId replacementId : Uuid) :
    (supersedeStaleDeployments appId replacementId).run.Calls OnlyStops := by
  unfold supersedeStaleDeployments
  apply Calls.run_bind
  · exact list_deployments_calls only_stops_of_quiet appId
  intro deployments
  apply calls_for_each
  intro deployment _
  exact supersede_calls replacementId trivial (fun _ => trivial) (fun _ _ => rfl) fun _ => trivial

variable {id : Uuid}

theorem row_of_lookup {db : Database} {row : Deployment} (found : db.deploymentRow id = some row) :
    row.id = id :=
  (lookup_eq_some_mem found).2

variable {before after : World}

theorem load_answer {answer : Except String (Option Deployment)}
    (possible : Possible (Op.query (.deployment id)) before answer after)
    {found : Option Deployment} (same : answer = .ok found) :
    before.db.deploymentRow id = found := by
  rcases (possible_query possible).2 with read | ⟨message, failed⟩
  · exact Except.ok.inj (read.symm.trans same)
  · rw [failed] at same
    cases same

variable {op : Op} {answer : op.Answer}

theorem rows_match (possible : Possible op before answer after) : RowsMatch op answer := by
  cases op with
  | query wanted =>
      cases wanted with
      | deployment id =>
          intro row found
          exact row_of_lookup (load_answer possible found)
      | _ => trivial
  | _ => trivial

theorem finds_stopped (stored : before.db.statusOf id = some .stopped)
    (possible : Possible op before answer after) : FindsStopped id op answer := by
  cases op with
  | query wanted =>
      cases wanted with
      | deployment other =>
          rintro rfl found same
          have row : before.db.deploymentRow other = found := load_answer possible same
          rw [Database.statusOf, row] at stored
          exact Option.map_eq_some_iff.mp stored
      | _ => trivial
  | _ => trivial

theorem keeps_of_only_stops (stops : OnlyStops op) (other : ¬Saves id op) : op.KeepsStatus id := by
  cases op with
  | write change =>
      cases change with
      | saveDeployment deployment => exact other
      | saveApp app => trivial
      | deleteApp app => exact stops
      | deleteDeployment deployment => exact stops.elim
      | saveServiceDeployment row => trivial
      | appendDeploymentLog deployment line => trivial
  | _ => trivial

theorem keeps_of_by_worker (byWorker : ByWorker op) (other : ¬Saves id op) : op.KeepsStatus id := by
  cases op with
  | write change =>
      cases change with
      | saveDeployment deployment => exact other
      | saveApp app => trivial
      | deleteApp app => exact byWorker
      | deleteDeployment deployment => exact byWorker.elim
      | saveServiceDeployment row => trivial
      | appendDeploymentLog deployment line => trivial
  | _ => trivial

/-- A save of the record as stopped, or of nothing, leaves it stopped. -/
theorem status_stays_stopped (keeps : ¬Saves id op → op.KeepsStatus id)
    (sound : Saves id op → SavesStopped op) (stored : before.db.statusOf id = some .stopped)
    (possible : Possible op before answer after) : after.db.statusOf id = some .stopped := by
  by_cases saves : Saves id op
  · have stopped := sound saves
    unfold Saves at saves
    split at saves
    · rcases possible_write possible with ⟨-, db, applied, rfl⟩ | ⟨rfl, -⟩
      · have saved := Database.save_deployment_status_same applied
        rw [saves] at saved
        exact saved.trans (congrArg some stopped)
      · exact stored
    · exact saves.elim
  · rw [status_kept (keeps saves) possible]
    exact stored

def savedStatus (id : Uuid) : (op : Op) → op.Answer → Option DeploymentStatus
  | .write (.saveDeployment deployment), .ok () =>
      if deployment.id = id then some deployment.status else none
  | _, _ => none

theorem saves_of_saved_status {status : DeploymentStatus}
    (saved : savedStatus id op answer = some status) :
    ∃ deployment : Deployment, op = .write (.saveDeployment deployment) ∧ deployment.id = id ∧
      deployment.status = status := by
  unfold savedStatus at saved
  split at saved
  · split_ifs at saved with same
    exact ⟨_, rfl, same, Option.some.inj saved⟩
  · cases saved

theorem saved_status_stored {status : DeploymentStatus}
    (saved : savedStatus id op answer = some status) (possible : Possible op before answer after) :
    after.db.statusOf id = some status := by
  unfold savedStatus at saved
  split at saved
  · split_ifs at saved with same
    rcases possible_write possible with ⟨-, db, applied, rfl⟩ | ⟨-, message, failed⟩
    · have stored := Database.save_deployment_status_same applied
      rw [same] at stored
      exact stored.trans saved
    · cases failed
  · cases saved

section Runs

variable {Caller : Type}

/-- The worker (`none`) on one job, beside any number of supersede calls. -/
def racing (runtime : Runtime) (job : DeploymentJob) (appOf replacementOf : Caller → Uuid)
    (world : World) : Pool Effects (Option Caller) Unit World where
  threads
    | none => handleJob runtime job
    | some caller => ignore (supersedeStaleDeployments (appOf caller) (replacementOf caller))
  state := world

/-- Once a call has persisted `Stopped`, the worker persists nothing else. -/
def SupersedingFinal (id : Uuid) (history : List (Event Effects (Option Caller))) : Prop :=
  history.Pairwise fun earlier later =>
    earlier.thread ≠ none → savedStatus id earlier.op earlier.answer = some .stopped →
      later.thread = none → (savedStatus id later.op later.answer).all (· = .stopped) = true

/-- A call saves the record only while the worker has a load of it ahead of its
next save. -/
def MarkedBeforeLoad (id : Uuid) : Pool.Restriction Effects (Option Caller) Unit World :=
  fun _ pool event => event.thread ≠ none → Saves id event.op →
    (pool.threads none).ReadsFirst (Loads id) (Saves id)

/-- What holds of a run up to some point. -/
structure RaceInvariant (id : Uuid) (history : List (Event Effects (Option Caller)))
    (pool : Pool Effects (Option Caller) Unit World) : Prop where
  calls : ∀ caller, (pool.threads (some caller)).Calls OnlyStops
  worker : (pool.threads none).Calls ByWorker
  disciplined : (pool.threads none).Disciplined (workerRule id)
  stays : ∀ event ∈ history, event.thread ≠ none →
    savedStatus id event.op event.answer = some .stopped →
      pool.state.db.statusOf id = some .stopped ∧ (pool.threads none).Guarded (workerRule id)
  settled : SupersedingFinal id history

variable {id : Uuid} {history : List (Event Effects (Option Caller))}
  {pool after : Pool Effects (Option Caller) Unit World} {event : Event Effects (Option Caller)}

theorem settled_append (settled : SupersedingFinal id history)
    (last : ∀ earlier ∈ history, earlier.thread ≠ none →
      savedStatus id earlier.op earlier.answer = some .stopped → event.thread = none →
        (savedStatus id event.op event.answer).all (· = .stopped) = true) :
    SupersedingFinal id (history ++ [event]) := by
  unfold SupersedingFinal
  rw [List.pairwise_append]
  refine ⟨settled, List.pairwise_singleton _ _, ?_⟩
  intro earlier member later isLast
  rw [List.mem_singleton] at isLast
  subst isLast
  exact last earlier member

theorem race_start (runtime : Runtime) (job : DeploymentJob) (appOf replacementOf : Caller → Uuid)
    (world : World) (different : job.rollbackFromDeploymentId ≠ some job.deploymentId) :
    RaceInvariant job.deploymentId [] (racing runtime job appOf replacementOf world) := by
  constructor
  · intro caller
    exact ignore_calls (supersede_stale_deployments_calls _ _)
  · exact handle_job_by_worker runtime job
  · exact handle_job_disciplined runtime job different
  · intro event member
    exact absurd member List.not_mem_nil
  · exact List.Pairwise.nil

variable [DecidableEq Caller]

theorem caller_step (inv : RaceInvariant id history pool) (taken : Pool.Step Possible pool event after)
    (met : MarkedBeforeLoad id history pool event) (byCaller : event.thread ≠ none) :
    RaceInvariant id (history ++ [event]) after := by
  obtain ⟨next, ready, possible, moved⟩ := taken.own
  obtain ⟨caller, isCaller⟩ := Option.ne_none_iff_exists'.mp byCaller
  have workerSame : after.threads none = pool.threads none := taken.other (Ne.symm byCaller)
  have own : (Program.call event.op next).Calls OnlyStops := by
    have calls := inv.calls caller
    rwa [← isCaller, ready] at calls
  have keeps : ¬Saves id event.op → event.op.KeepsStatus id := keeps_of_only_stops own.head
  have sound : Saves id event.op → SavesStopped event.op := by
    intro saves
    have stops := own.head
    unfold Saves at saves
    split at saves
    · rename_i deployment isSave
      rw [isSave] at stops ⊢
      exact stops
    · exact saves.elim
  constructor
  · intro other
    by_cases same : some other = event.thread
    · rw [same, moved]
      exact own.next event.answer
    · rw [taken.other same]
      exact inv.calls other
  · rw [workerSame]
    exact inv.worker
  · rw [workerSame]
    exact inv.disciplined
  · intro earlier member notWorker marked
    rw [workerSame]
    rcases List.mem_append.mp member with past | last
    · obtain ⟨stored, guarded⟩ := inv.stays earlier past notWorker marked
      exact ⟨status_stays_stopped keeps sound stored possible, guarded⟩
    · rw [List.mem_singleton] at last
      subst last
      obtain ⟨deployment, isSave, same, -⟩ := saves_of_saved_status marked
      have saves : Saves id earlier.op := by
        rw [isSave]
        exact same
      exact ⟨saved_status_stored marked possible,
        inv.disciplined.guarded (met notWorker saves)⟩
  · apply settled_append inv.settled
    intro earlier _ _ _ isWorker
    exact absurd isWorker byCaller

theorem worker_step (inv : RaceInvariant id history pool)
    (taken : Pool.Step Possible pool event after) (byWorker : event.thread = none) :
    RaceInvariant id (history ++ [event]) after := by
  obtain ⟨next, ready, possible, moved⟩ := taken.own
  rw [byWorker] at ready moved
  have calls := inv.worker
  have disciplined := inv.disciplined
  rw [ready] at calls disciplined
  have keeps : ¬Saves id event.op → event.op.KeepsStatus id := keeps_of_by_worker calls.head
  -- the worker's next write is harmless once the record has been marked
  have guardedStep : ∀ earlier ∈ history, earlier.thread ≠ none →
      savedStatus id earlier.op earlier.answer = some .stopped →
      pool.state.db.statusOf id = some .stopped ∧ (Saves id event.op → SavesStopped event.op) ∧
        (next event.answer).Guarded (workerRule id) := by
    intro earlier past notWorker marked
    obtain ⟨stored, guarded⟩ := inv.stays earlier past notWorker marked
    rw [ready] at guarded
    obtain ⟨sound, rest⟩ := guarded_call.mp guarded
    exact ⟨stored, sound, rest event.answer (rows_match possible) (finds_stopped stored possible)⟩
  constructor
  · intro caller
    have different : some caller ≠ event.thread := by
      rw [byWorker]
      exact Option.some_ne_none caller
    rw [taken.other different]
    exact inv.calls caller
  · rw [moved]
    exact calls.next event.answer
  · rw [moved]
    exact disciplined.next (rows_match possible)
  · intro earlier member notWorker marked
    rcases List.mem_append.mp member with past | last
    · obtain ⟨stored, sound, guarded⟩ := guardedStep earlier past notWorker marked
      rw [moved]
      exact ⟨status_stays_stopped keeps sound stored possible, guarded⟩
    · rw [List.mem_singleton] at last
      subst last
      exact absurd byWorker notWorker
  · apply settled_append inv.settled
    intro earlier past notWorker marked _
    obtain ⟨-, sound, -⟩ := guardedStep earlier past notWorker marked
    cases saved : savedStatus id event.op event.answer with
    | none => rfl
    | some status =>
        obtain ⟨deployment, isSave, same, rfl⟩ := saves_of_saved_status saved
        have stopped : deployment.status = .stopped := by
          rw [isSave] at sound
          exact sound same
        simp [stopped]

/-- Superseding is final in every run that marks the record only where the worker
loads it again before its next save. -/
theorem superseding_final (runtime : Runtime) (job : DeploymentJob)
    (appOf replacementOf : Caller → Uuid) (world : World)
    (different : job.rollbackFromDeploymentId ≠ some job.deploymentId)
    {history : List (Event Effects (Option Caller))}
    {pool : Pool Effects (Option Caller) Unit World}
    (trace : Pool.Trace Possible (MarkedBeforeLoad job.deploymentId)
      (racing runtime job appOf replacementOf world) history pool) :
    SupersedingFinal job.deploymentId history := by
  have inv : RaceInvariant job.deploymentId history pool := by
    apply trace.invariant
    · exact race_start runtime job appOf replacementOf world different
    · intro history pool event after _ inv taken met
      by_cases byWorker : event.thread = none
      · exact worker_step inv taken byWorker
      · exact caller_step inv taken met byWorker
  exact inv.settled

end Runs

instance {Caller : Type} [DecidableEq Caller] (id : Uuid)
    (history : List (Event Effects (Option Caller))) : Decidable (SupersedingFinal id history) :=
  inferInstanceAs (Decidable (history.Pairwise fun earlier later =>
    earlier.thread ≠ none → savedStatus id earlier.op earlier.answer = some .stopped →
      later.thread = none → (savedStatus id later.op later.answer).all (· = .stopped) = true))

/-- One supersede call, for a replacement that is not the deployment. -/
def demoRace : Pool Effects (Option Unit) Unit World :=
  racing demoRuntime demoJob (fun _ => ⟨1⟩) (fun _ => ⟨11⟩) demoWorld

/-- The deployment is marked before the worker starts on it, and stays stopped to
the end of the job. -/
theorem superseding_final_before_start :
    ∃ history pool, Pool.Trace Possible (MarkedBeforeLoad demoJob.deploymentId) demoRace history
        pool ∧
      (history.any fun event =>
        savedStatus demoJob.deploymentId event.op event.answer = some .stopped) = true ∧
      SupersedingFinal demoJob.deploymentId history := by
  have marks : ((Pool.execute system (turns [(some (), 5)]) demoRace).bind fun first =>
      (Pool.execute system (turns [(none, 6)]) first.2).map fun second =>
        first.1.any fun event =>
          decide (savedStatus demoJob.deploymentId event.op event.answer = some .stopped)) =
      some true := by decide +kernel
  obtain ⟨⟨first, middle⟩, marked, rest⟩ := Option.bind_eq_some_iff.mp marks
  obtain ⟨⟨second, final⟩, executed, found⟩ := Option.map_eq_some_iff.mp rest
  have begun : Pool.Trace Possible (MarkedBeforeLoad demoJob.deploymentId) demoRace ([] ++ first)
      middle ∧ middle.threads none = demoRace.threads none := by
    apply Pool.Trace.execute (fun pool => pool.threads none = demoRace.threads none)
      turns_admitted ?_ Pool.Trace.start rfl marked
    intro entry member history pool event after thread untouched taken
    have notWorker : none ≠ event.thread := by
      rw [thread, turns_thread member]
      exact (Option.some_ne_none ()).symm
    refine ⟨fun _ _ => ?_, (taken.other notWorker).trans untouched⟩
    rw [untouched]
    exact (reads_first_call _ _).mpr (Or.inl rfl)
  have ended : Pool.Trace Possible (MarkedBeforeLoad demoJob.deploymentId) demoRace
      ([] ++ first ++ second) final ∧ True := by
    apply Pool.Trace.execute (fun _ => True)
      turns_admitted ?_ begun.1 trivial executed
    intro entry member history pool event after thread _ _
    refine ⟨fun byCaller => absurd ?_ byCaller, trivial⟩
    rw [thread, turns_thread member]
  refine ⟨_, final, ended.1, ?_, superseding_final demoRuntime demoJob _ _ demoWorld
    (by decide) ended.1⟩
  rw [List.nil_append, List.any_append, Bool.or_eq_true]
  exact Or.inl found

/-- The worker has checked the record and is about to save it as building when
the call marks it. -/
theorem superseding_overwritten :
    ∃ history pool, Pool.Trace Possible (fun _ _ _ => True) demoRace history pool ∧
      ¬SupersedingFinal demoJob.deploymentId history := by
  have ran : ((Pool.execute system (turns [(none, 8), (some (), 5), (none, 3)])
      demoRace).map fun run => decide (SupersedingFinal demoJob.deploymentId run.1)) =
      some false := by decide +kernel
  obtain ⟨⟨history, pool⟩, executed, refuted⟩ := Option.map_eq_some_iff.mp ran
  refine ⟨history, pool, ?_, of_decide_eq_false refuted⟩
  exact Pool.Trace.of_execute turns_admitted executed

end Containr.Superseding
