import Containr.Effect.Discipline
import Containr.Worker.Footprint

/-!
# What the worker owes to a superseded deployment

The worker holds a copy of the deployment it processes and saves it several
times. Wherever it loads the record before it saves it again, it gives up as soon
as it finds the record stopped.
-/

namespace Containr.Superseding

open Containr.Effect Containr.Effect.Program Containr.Worker

def Loads (id : Uuid) (op : Op) : Prop := op = .query (.deployment id)

def Saves (id : Uuid) : Op → Prop
  | .write (.saveDeployment deployment) => deployment.id = id
  | _ => False

def SavesStopped : Op → Prop
  | .write (.saveDeployment deployment) => deployment.status = .stopped
  | _ => True

def RowsMatch : (op : Op) → op.Answer → Prop
  | .query (.deployment id), answer => ∀ row, answer = .ok (some row) → row.id = id
  | _, _ => True

def FindsStopped (id : Uuid) : (op : Op) → op.Answer → Prop
  | .query (.deployment wanted), answer =>
      wanted = id → ∀ found, answer = .ok found → ∃ row, found = some row ∧ row.status = .stopped
  | _, _ => True

def workerRule (id : Uuid) : Discipline Effects where
  reads := Loads id
  writes := Saves id
  apart := by
    rintro op rfl saves
    exact saves
  credible := RowsMatch
  promised := FindsStopped id
  sound := SavesStopped

section

variable {id : Uuid} {Value : Type}

theorem within_silent {names : String → Prop} {rows : ServiceDeployment → Prop} (op : Op)
    (within : op.Within names rows) : ¬Loads id op ∧ ¬Saves id op := by
  constructor
  · rintro rfl
    exact within
  · intro saves
    cases op with
    | write change =>
        cases change with
        | saveDeployment deployment => exact within
        | saveApp app => exact saves
        | deleteApp other => exact saves
        | deleteDeployment other => exact saves
        | saveServiceDeployment row => exact saves
        | appendDeploymentLog other line => exact saves
    | _ => exact saves

def Loaded (id : Uuid) (result : Except String (Option Deployment)) : Prop :=
  ∀ deployment, result = .ok (some deployment) → deployment.id = id

def LoadedStopped (result : Except String (Option Deployment)) : Prop :=
  ∀ found, result = .ok found → ∃ deployment, found = some deployment ∧
    deployment.status = .stopped

variable {program : Sys Value}

theorem Calls.silent (quiet : program.Calls Op.Quiet) :
    program.Calls fun op => ¬Loads id op ∧ ¬Saves id op := quiet.mono within_silent

theorem store_flag_silent (flag : Flag) (value : Bool) :
    (storeFlag flag value).Calls fun op => ¬Loads id op ∧ ¬Saves id op := by
  apply op_calls
  constructor
  · intro loads
    cases loads
  · exact fun saves => saves

theorem quiet_bind_guarded {Other : Type} {continuation : Value → Sys Other}
    (quiet : program.Calls Op.Quiet) (rest : ∀ value, (continuation value).Guarded (workerRule id)) :
    (program.bind continuation).Guarded (workerRule id) := by
  apply guarded_bind (fun _ => True)
  · apply Calls.under
    exact quiet.mono fun op within saves => absurd saves (within_silent op within).2
  · exact fun value _ => rest value

theorem quiet_bind_disciplined {Other : Type} {continuation : Value → Sys Other}
    (quiet : program.Calls Op.Quiet)
    (rest : ∀ value, (continuation value).Disciplined (workerRule id)) :
    (program.bind continuation).Disciplined (workerRule id) :=
  Disciplined.calls_bind (Calls.silent quiet) rest

theorem load_guarded {continuation : Except String (Option Deployment) → Sys Value}
    (guarded : ∀ result, Loaded id result → LoadedStopped result →
      (continuation result).Guarded (workerRule id)) :
    ((Store.getDeployment id).run.bind continuation).Guarded (workerRule id) := by
  unfold Store.getDeployment
  rw [run_bind_bind, Store.query_bind]
  apply guarded_call.mpr
  refine ⟨fun saves => saves.elim, fun answer credible promised => ?_⟩
  rcases answer with message | row
  · apply guarded
    · intro deployment absurd
      cases absurd
    · intro found absurd
      cases absurd
  · obtain ⟨stored, rfl, stopped⟩ := promised rfl row rfl
    dsimp only
    rw [run_bind_bind]
    apply quiet_bind_guarded (query_quiet (by simp))
    intro children
    cases children with
    | error message =>
        apply guarded
        · intro deployment absurd
          cases absurd
        · intro found absurd
          cases absurd
    | ok rows =>
        apply guarded
        · intro deployment same
          cases same
          exact credible stored rfl
        · intro found same
          cases same
          exact ⟨_, rfl, stopped⟩

theorem load_disciplined {continuation : Except String (Option Deployment) → Sys Value}
    (whole : ((Store.getDeployment id).run.bind continuation).Guarded (workerRule id))
    (rest : ∀ result, Loaded id result → (continuation result).Disciplined (workerRule id)) :
    ((Store.getDeployment id).run.bind continuation).Disciplined (workerRule id) := by
  unfold Store.getDeployment at whole ⊢
  rw [run_bind_bind, Store.query_bind] at whole ⊢
  apply disciplined_read
  · exact rfl
  · exact (guarded_call.mp whole).2
  · intro answer credible
    rcases answer with message | (_ | stored)
    · apply rest
      intro deployment absurd
      cases absurd
    · apply rest
      intro deployment absurd
      cases absurd
    · dsimp only
      rw [run_bind_bind]
      apply quiet_bind_disciplined (query_quiet (by simp))
      intro children
      cases children with
      | error message =>
          apply rest
          intro deployment absurd
          cases absurd
      | ok rows =>
          apply rest
          intro deployment same
          cases same
          exact credible stored rfl

theorem should_continue_guarded {message : String}
    {continuation : Except String Bool → Sys Value}
    (stops : (continuation (.ok false)).Guarded (workerRule id))
    (fails : ∀ error, (continuation (.error error)).Guarded (workerRule id)) :
    ((shouldContinueDeployment id message).run.bind continuation).Guarded (workerRule id) := by
  unfold shouldContinueDeployment
  rw [run_bind_bind]
  apply load_guarded
  intro result _ stopped
  rcases result with error | found
  · exact fails error
  · obtain ⟨deployment, rfl, isStopped⟩ := stopped found rfl
    dsimp only
    rw [if_pos isStopped, run_lift_bind_bind]
    apply quiet_bind_guarded (ignore_calls (log_quiet _ _))
    intro _
    exact stops

theorem should_continue_disciplined {message : String}
    {continuation : Except String Bool → Sys Value}
    (rest : ∀ result, (continuation result).Disciplined (workerRule id))
    (stops : (continuation (.ok false)).Guarded (workerRule id))
    (fails : ∀ error, (continuation (.error error)).Guarded (workerRule id)) :
    ((shouldContinueDeployment id message).run.bind continuation).Disciplined
      (workerRule id) := by
  have whole := @should_continue_guarded id _ message _ stops fails
  unfold shouldContinueDeployment at whole ⊢
  rw [run_bind_bind] at whole ⊢
  apply load_disciplined whole
  intro result _
  rcases result with error | (_ | deployment)
  · exact rest (.error error)
  · exact rest (.ok false)
  · dsimp only
    by_cases isStopped : deployment.status = .stopped
    · rw [if_pos isStopped, run_lift_bind_bind]
      apply quiet_bind_disciplined (ignore_calls (log_quiet _ _))
      intro _
      exact rest (.ok false)
    · rw [if_neg isStopped]
      exact rest (.ok true)

variable {continuation : Except String Unit → Sys Value} {deployment : Deployment}

theorem save_disciplined (same : deployment.id = id)
    (rest : ∀ result, (continuation result).Disciplined (workerRule id)) :
    ((Store.saveDeployment deployment).run.bind continuation).Disciplined (workerRule id) := by
  rw [Store.saveDeployment, Store.write_bind]
  apply disciplined_write
  · exact same
  · intro answer _
    exact rest answer

theorem update_status_disciplined {status : DeploymentStatus} (same : deployment.id = id)
    (rest : ∀ result, (continuation result).Disciplined (workerRule id)) :
    ((updateStatus deployment status).run.bind continuation).Disciplined (workerRule id) := by
  unfold updateStatus
  rw [run_lift_bind_bind]
  apply quiet_bind_disciplined utc_now_quiet
  intro now
  rw [run_lift_bind_bind]
  apply quiet_bind_disciplined (ignore_calls (log_quiet _ _))
  intro _
  exact save_disciplined same rest

theorem get_deployment_under {wanted : Uuid} {allowed : Op → Prop}
    (row : allowed (.query (.deployment wanted)))
    (children : allowed (.query (.serviceDeployments wanted))) :
    (Store.getDeployment wanted).run.Under RowsMatch allowed (Loaded wanted) := by
  unfold Store.getDeployment
  apply under_run_bind.mpr
  apply under_op row
  intro answer credible
  rcases answer with message | (_ | stored)
  · intro deployment absurd
    cases absurd
  · apply under_pure.mpr
    intro deployment absurd
    cases absurd
  · apply under_run_bind.mpr
    apply under_op children
    intro rows _
    rcases rows with message | rows
    · intro deployment absurd
      cases absurd
    · apply under_pure.mpr
      intro deployment same
      cases same
      exact credible stored rfl

theorem mark_stopped_silent {previous : Deployment} (different : previous.id ≠ id) :
    (markDeploymentStopped previous).run.Under RowsMatch
      (fun op => ¬Loads id op ∧ ¬Saves id op) fun _ => True := by
  unfold markDeploymentStopped
  apply (Calls.under (Calls.silent utc_now_quiet)).run_lift_bind
  intro finishedAt _
  apply under_run_bind.mpr
  have otherRow : ¬Loads id (.query (.deployment previous.id)) := by
    intro same
    cases same
    exact different rfl
  have loads : (Store.getDeployment previous.id).run.Under RowsMatch
      (fun op => ¬Loads id op ∧ ¬Saves id op) (Loaded previous.id) :=
    get_deployment_under ⟨otherRow, fun saves => saves⟩
      ⟨by simp [Loads], fun saves => saves⟩
  apply loads.mono
  intro result loaded
  rcases result with message | found
  · trivial
  · have current : (found.getD previous).id = previous.id := by
      cases found with
      | none => rfl
      | some deployment => exact loaded deployment rfl
    apply Calls.under
    apply op_calls
    exact ⟨by simp [Loads], fun same => different (current.symm.trans same)⟩

theorem restore_silent (snapshot : App) (isRollback : Bool) :
    (restoreIfRollback snapshot isRollback).run.Calls fun op => ¬Loads id op ∧ ¬Saves id op :=
  restore_calls snapshot isRollback (fun _ => ⟨by simp [Loads, Saves], by simp [Loads, Saves]⟩)
    (by simp [Loads, Saves]) fun _ => by simp [Loads, Saves]

theorem finish_rollout_disciplined {plan : Plan} {rollout : Rollout} {isRollback : Bool}
    (same : plan.deployment.id = id) (others : ∀ previous ∈ plan.previous, previous.id ≠ id)
    (rest : ∀ result, (continuation result).Disciplined (workerRule id)) :
    ((finishRollout plan rollout isRollback).run.bind continuation).Disciplined
      (workerRule id) := by
  unfold finishRollout
  rw [run_bind_bind]
  apply Disciplined.calls_bind (restore_silent plan.app isRollback)
  intro restored
  rcases restored with message | _
  · exact rest _
  dsimp only
  rw [run_bind_bind]
  apply quiet_bind_disciplined (query_quiet (by simp))
  intro existing
  rcases existing with message | existing
  · exact rest _
  dsimp only
  rw [run_lift_bind_bind]
  apply quiet_bind_disciplined utc_now_quiet
  intro startedAt
  rw [run_lift_bind_bind]
  apply quiet_bind_disciplined utc_now_quiet
  intro finishedAt
  rw [run_bind_bind]
  apply save_disciplined (show (finishedDeployment plan _ _ _).id = id from same)
  intro saved
  rcases saved with message | _
  · exact rest _
  dsimp only
  rw [run_lift_bind_bind]
  apply quiet_bind_disciplined (send_proxy_refresh_quiet _ _)
  intro _
  rw [run_lift_bind_bind]
  apply Disciplined.calls_bind ((sweep_old_calls _ _).mono within_silent)
  intro _
  apply Disciplined.quiet_bind (fun _ => True)
  · apply under_for_each
    intro previous member
    exact mark_stopped_silent (others previous member)
  · intro result _
    exact rest result

theorem previous_running_others {appId : Uuid} {allowed : Op → Prop}
    (quiet : ∀ op : Op, op.Quiet → allowed op) :
    (getPreviousRunningDeployments appId id).run.Under RowsMatch allowed fun result =>
      ∀ previous, result = .ok previous → ∀ deployment ∈ previous, deployment.id ≠ id := by
  unfold getPreviousRunningDeployments
  apply (Calls.under ((list_deployments_quiet appId).mono quiet)).run_bind
  intro result _
  rcases result with message | deployments
  · intro previous absurd
    cases absurd
  · apply under_pure.mpr
    intro previous same deployment member
    cases same
    have kept := (List.mem_filter.mp member).2
    simp only [ne_eq, decide_not, Bool.and_eq_true, Bool.not_eq_true', decide_eq_false_iff_not]
      at kept
    exact kept.1

theorem deploy_services_disciplined {runtime : Runtime} {app : App} {networkName : String}
    {images : ServiceImages} {sharedEnv : List (String × String)} {strategy : RolloutStrategy}
    {isRollback : Bool} (same : deployment.id = id)
    (rest : ∀ result, (continuation result).Disciplined (workerRule id)) :
    ((deployServices runtime app deployment networkName images sharedEnv strategy
      isRollback).run.bind continuation).Disciplined (workerRule id) := by
  unfold deployServices
  rw [run_bind_bind]
  apply quiet_bind_disciplined (sort_services_quiet _)
  intro sorted
  rcases sorted with message | sorted
  · exact rest _
  dsimp only
  rw [run_bind_bind, same]
  apply Disciplined.quiet_bind _ (previous_running_others within_silent)
  intro previous others
  rcases previous with message | previous
  · exact rest _
  dsimp only
  rw [run_lift_bind_bind]
  apply Disciplined.calls_bind ((rollout_services_calls _ sorted).mono within_silent)
  rintro ⟨outcome, rollout⟩
  rcases outcome with message | _
  · dsimp only
    rw [run_lift_bind_bind]
    have undone := undo_tracked rollout
    apply Disciplined.calls_bind (undone.mono within_silent)
    intro _
    exact rest _
  · exact finish_rollout_disciplined same (others previous rfl) rest

section Stages

variable {runtime : Runtime} {job : DeploymentJob} {deployment : Deployment} {app : App}
  {finish : Except String Unit → Sys Value}

/-- A stage that ends the job, with what is left of the job after it. -/
theorem start_deployment_disciplined {images : ServiceImages} {isRollback : Bool}
    (same : deployment.id = id)
    (rest : ∀ result, (finish result).Disciplined (workerRule id))
    (guarded : ∀ result, (finish result).Guarded (workerRule id)) :
    ((startDeployment runtime job deployment app images isRollback).run.bind finish).Disciplined
      (workerRule id) := by
  unfold startDeployment
  rw [run_bind_bind]
  apply update_status_disciplined same
  intro updated
  rcases updated with message | _
  · exact rest _
  dsimp only
  rw [run_bind_bind, same]
  apply should_continue_disciplined
  · intro continues
    rcases continues with message | continues
    · exact rest _
    · cases continues with
      | false => exact rest _
      | true =>
          dsimp only
          rw [if_neg (by simp), run_bind_bind]
          apply quiet_bind_disciplined (external_quiet _)
          intro network
          rcases network with message | _
          · exact rest _
          · exact deploy_services_disciplined same rest
  · exact guarded _
  · intro message
    exact guarded _

theorem checkout_source_disciplined {continuation : Except String (Option String) → Sys Value}
    (same : deployment.id = id)
    (rest : ∀ result, (continuation result).Disciplined (workerRule id)) :
    ((checkoutSource runtime job deployment).run.bind continuation).Disciplined
      (workerRule id) := by
  unfold checkoutSource
  by_cases none : job.source = .none
  · rw [if_pos none]
    exact rest _
  · rw [if_neg none, run_bind_bind]
    apply update_status_disciplined same
    intro updated
    rcases updated with message | _
    · exact rest _
    dsimp only
    rw [run_bind_bind]
    apply quiet_bind_disciplined (clone_repo_quiet runtime job)
    intro cloned
    rcases cloned with message | path
    · exact rest _
    · exact rest _

theorem source_images_disciplined
    {continuation : Except String (Option ServiceImages) → Sys Value} (same : deployment.id = id)
    (rest : ∀ result, (continuation result).Disciplined (workerRule id))
    (stops : (continuation (.ok none)).Guarded (workerRule id))
    (fails : ∀ message, (continuation (.error message)).Guarded (workerRule id)) :
    ((sourceImages runtime job deployment app).run.bind continuation).Disciplined
      (workerRule id) := by
  unfold sourceImages
  rw [run_bind_bind]
  apply checkout_source_disciplined same
  intro checkedOut
  rcases checkedOut with message | repoPath
  · exact rest _
  dsimp only
  rw [run_bind_bind, same]
  apply should_continue_disciplined
  · intro continues
    rcases continues with message | continues
    · exact rest _
    · cases continues with
      | false =>
          dsimp only
          rw [if_pos (by simp), run_lift_bind_bind]
          apply quiet_bind_disciplined (remove_checkout_quiet repoPath)
          intro _
          exact rest _
      | true =>
          dsimp only
          rw [if_neg (by simp), run_bind_bind]
          apply update_status_disciplined same
          intro updated
          rcases updated with message | _
          · exact rest _
          dsimp only
          rw [run_bind_bind]
          apply quiet_bind_disciplined (build_service_images_quiet _ _ _ _ _)
          intro built
          rcases built with message | images
          · exact rest _
          dsimp only
          rw [run_lift_bind_bind]
          apply quiet_bind_disciplined (remove_checkout_quiet repoPath)
          intro _
          rw [run_bind_bind]
          apply should_continue_disciplined
          · intro continues
            rcases continues with message | continues
            · exact rest _
            · cases continues with
              | false => exact rest _
              | true => exact rest _
          · exact stops
          · exact fails
  · dsimp only
    rw [if_pos (by simp), run_lift_bind_bind]
    apply quiet_bind_guarded (remove_checkout_quiet repoPath)
    intro _
    exact stops
  · exact fails

theorem job_images_disciplined {source : Option Deployment}
    {continuation : Except String (Option ServiceImages) → Sys Value} (same : deployment.id = id)
    (rest : ∀ result, (continuation result).Disciplined (workerRule id))
    (stops : (continuation (.ok none)).Guarded (workerRule id))
    (fails : ∀ message, (continuation (.error message)).Guarded (workerRule id)) :
    ((jobImages runtime job deployment app source).run.bind continuation).Disciplined
      (workerRule id) := by
  cases source with
  | none => exact source_images_disciplined same rest stops fails
  | some source =>
      unfold jobImages
      rw [run_lift_bind_bind]
      apply quiet_bind_disciplined (ignore_calls (log_quiet _ _))
      intro _
      rw [run_bind_bind]
      apply quiet_bind_disciplined (calls_pure _)
      intro images
      rcases images with message | images
      · exact rest _
      · exact rest _

theorem load_rollback_source_disciplined
    {continuation : Except String (Option Deployment) → Sys Value}
    (different : job.rollbackFromDeploymentId ≠ some id)
    (rest : ∀ result, (continuation result).Disciplined (workerRule id)) :
    ((loadRollbackSource job).run.bind continuation).Disciplined (workerRule id) := by
  unfold loadRollbackSource
  cases source : job.rollbackFromDeploymentId with
  | none => exact rest _
  | some sourceId =>
      have otherRow : ¬Loads id (.query (.deployment sourceId)) := by
        intro same
        cases same
        exact different source
      have children : ¬Loads id (.query (.serviceDeployments sourceId)) := by simp [Loads]
      dsimp only
      rw [run_bind_bind]
      apply Disciplined.quiet_bind (Loaded sourceId)
      · exact get_deployment_under ⟨otherRow, fun saves => saves⟩ ⟨children, fun saves => saves⟩
      intro result _
      rcases result with message | (_ | found)
      · exact rest _
      · exact rest _
      · dsimp only
        rw [run_bind_bind]
        apply quiet_bind_disciplined (ensure_calls _ _)
        intro matched
        rcases matched with message | _
        · exact rest _
        · exact rest _

theorem process_job_guarded (same : job.deploymentId = id)
    (guarded : ∀ result, (finish result).Guarded (workerRule id)) :
    ((processJob runtime job).run.bind finish).Guarded (workerRule id) := by
  unfold processJob
  rw [run_bind_bind, same]
  apply load_guarded
  intro result loaded stopped
  rcases result with message | found
  · exact guarded _
  obtain ⟨deployment, rfl, -⟩ := stopped found rfl
  have own : deployment.id = id := loaded deployment rfl
  dsimp only
  rw [run_bind_bind]
  apply quiet_bind_guarded (ensure_calls _ _)
  intro matched
  rcases matched with message | _
  · exact guarded _
  dsimp only
  rw [run_bind_bind, own]
  apply should_continue_guarded
  · exact guarded _
  · intro message
    exact guarded _

theorem process_job_disciplined (same : job.deploymentId = id)
    (different : job.rollbackFromDeploymentId ≠ some id)
    (rest : ∀ result, (finish result).Disciplined (workerRule id))
    (guarded : ∀ result, (finish result).Guarded (workerRule id)) :
    ((processJob runtime job).run.bind finish).Disciplined (workerRule id) := by
  have whole := @process_job_guarded id _ runtime job finish same guarded
  unfold processJob at whole ⊢
  rw [run_bind_bind, same] at whole ⊢
  apply load_disciplined whole
  intro result loaded
  rcases result with message | (_ | deployment)
  · exact rest _
  · exact rest _
  have own : deployment.id = id := loaded deployment rfl
  dsimp only
  rw [run_bind_bind]
  apply quiet_bind_disciplined (ensure_calls _ _)
  intro matched
  rcases matched with message | _
  · exact rest _
  dsimp only
  rw [run_bind_bind, own]
  apply should_continue_disciplined
  · intro continues
    rcases continues with message | continues
    · exact rest _
    cases continues with
    | false => exact rest _
    | true =>
        dsimp only
        rw [if_neg (by simp), run_bind_bind]
        apply quiet_bind_disciplined (get_app_quiet _)
        intro found
        rcases found with message | (_ | currentApp)
        · exact rest _
        · exact rest _
        dsimp only
        rw [run_bind_bind]
        apply load_rollback_source_disciplined different
        intro source
        rcases source with message | source
        · exact rest _
        dsimp only
        rw [run_bind_bind]
        apply job_images_disciplined own
        · intro images
          rcases images with message | (_ | images)
          · exact rest _
          · exact rest _
          · exact start_deployment_disciplined own rest guarded
        · exact guarded _
        · intro message
          exact guarded _
  · exact guarded _
  · intro message
    exact guarded _

end Stages

theorem mark_failed_guarded (message : String) :
    (markFailed id message).Guarded (workerRule id) := by
  unfold markFailed
  apply load_guarded
  intro result _ stopped
  rcases result with error | found
  · exact guarded_pure _
  · obtain ⟨deployment, rfl, isStopped⟩ := stopped found rfl
    dsimp only
    rw [if_pos isStopped]
    exact guarded_pure _

theorem mark_failed_disciplined (message : String) :
    (markFailed id message).Disciplined (workerRule id) := by
  have whole := @mark_failed_guarded id message
  unfold markFailed at whole ⊢
  apply load_disciplined whole
  intro result loaded
  rcases result with error | (_ | deployment)
  · exact disciplined_pure _
  · exact disciplined_pure _
  · dsimp only
    by_cases isStopped : deployment.status = .stopped
    · rw [if_pos isStopped]
      exact disciplined_pure _
    · rw [if_neg isStopped]
      apply quiet_bind_disciplined utc_now_quiet
      intro now
      apply quiet_bind_disciplined (ignore_calls (log_quiet _ _))
      intro _
      exact save_disciplined (loaded deployment rfl) fun _ => disciplined_pure _

theorem handle_job_disciplined (runtime : Runtime) (job : DeploymentJob)
    (different : job.rollbackFromDeploymentId ≠ some job.deploymentId) :
    (handleJob runtime job).Disciplined (workerRule job.deploymentId) := by
  unfold handleJob
  apply process_job_disciplined rfl different
  · intro result
    apply quiet_bind_disciplined (cleanup_quiet runtime job)
    intro _
    apply Disciplined.calls_bind (store_flag_silent _ _)
    intro _
    cases result with
    | ok _ => exact disciplined_pure _
    | error message => exact mark_failed_disciplined message
  · intro result
    apply quiet_bind_guarded (cleanup_quiet runtime job)
    intro _
    apply guarded_bind (fun _ => True)
    · apply Calls.under
      exact (store_flag_silent _ _).mono fun op silent saves => absurd saves silent.2
    intro _ _
    cases result with
    | ok _ => exact guarded_pure _
    | error message => exact mark_failed_guarded message

end

end Containr.Superseding
