import Containr.Superseding.Final
import Containr.Worker.Pause

/-!
# Finished jobs and the replay after a restart

A restart replays every deployment whose status is still in progress. A job that
returns `Ok` has settled its deployment before the running flag is lowered; the
failure of a job is recorded afterwards. `Tracking` follows one deployment through
the calls of a job: whether the answers so far show it settled.
-/

namespace Containr.Worker

open Containr.Effect Containr.Effect.Program Containr.Superseding

/-- The replay passes the deployment over. -/
def Settled (db : Database) (id : Uuid) : Prop :=
  ∀ row ∈ db.deployments, row.id = id → row.status.inProgress = false

def Reopens (id : Uuid) : Op → Prop
  | .write (.saveDeployment deployment) => deployment.id = id ∧ deployment.status.inProgress = true
  | _ => False

def Settles (id : Uuid) : (op : Op) → op.Answer → Prop
  | .query (.deployment wanted), .ok found =>
      wanted = id ∧ ∀ row, found = some row → row.status.inProgress = false
  | .write (.saveDeployment deployment), .ok () =>
      deployment.id = id ∧ deployment.status.inProgress = false
  | _, _ => False

instance (db : Database) (id : Uuid) : Decidable (Settled db id) :=
  inferInstanceAs (Decidable (∀ row ∈ db.deployments, row.id = id → row.status.inProgress = false))

def KeyedDeployments (db : Database) : Prop := (db.deployments.map (·.id)).Nodup

section Store

variable {id : Uuid}

theorem settled_save {db after : Database} {deployment : Deployment}
    (saved : db.saveDeployment deployment = some after)
    (finished : deployment.id = id → deployment.status.inProgress = false)
    (settled : deployment.id ≠ id → Settled db id) : Settled after id := by
  obtain ⟨-, -, deployments, -⟩ := Database.save_deployment_shape saved
  intro row member same
  rw [deployments] at member
  rcases mem_upsert.mp member with rfl | ⟨old, different⟩
  · exact finished same
  · have notSaved : deployment.id ≠ id := fun written => different (same.trans written.symm)
    exact settled notSaved row old same

theorem settled_kept_by_write {db after : Database} {change : Write} (settled : Settled db id)
    (quiet : ¬Reopens id (.write change)) (applied : change.apply db = some after) :
    Settled after id := by
  cases change with
  | saveDeployment deployment =>
      apply settled_save applied
      · intro same
        by_contra unfinished
        exact quiet ⟨same, by simpa using unfinished⟩
      · exact fun _ => settled
  | saveApp app =>
      intro row member
      rw [Database.save_app_deployments applied] at member
      exact settled row member
  | deleteApp app =>
      cases applied
      intro row member
      exact settled row (List.mem_filter.mp member).1
  | deleteDeployment deleted =>
      cases applied
      intro row member same
      obtain ⟨source, inTable, image⟩ := List.mem_map.mp member
      have stored := (List.mem_filter.mp inTable).1
      split_ifs at image
      · subst image
        exact settled source stored same
      · subst image
        exact settled source stored same
  | saveServiceDeployment record =>
      rw [Database.save_service_deployment_shape applied]
      exact settled
  | appendDeploymentLog deployment line =>
      rw [Database.append_deployment_log_shape applied]
      exact settled

variable {op : Op} {answer : op.Answer}

theorem settled_kept {before after : World} (settled : Settled before.db id)
    (quiet : ¬Reopens id op) (possible : Possible op before answer after) :
    Settled after.db id := by
  rcases possible_written possible with same | ⟨change, db, rfl, applied, rfl⟩
  · rw [same]
    exact settled
  · exact settled_kept_by_write settled quiet applied

theorem keyed_kept {before after : World} (keyed : KeyedDeployments before.db)
    (possible : Possible op before answer after) : KeyedDeployments after.db := by
  rcases possible_written possible with same | ⟨change, db, rfl, applied, rfl⟩
  · rw [KeyedDeployments, same]
    exact keyed
  · unfold KeyedDeployments at keyed ⊢
    cases change with
    | saveDeployment deployment =>
        obtain ⟨-, -, deployments, -⟩ := Database.save_deployment_shape applied
        rw [deployments]
        exact upsert_nodup _ _ _ keyed
    | saveApp app =>
        rw [Database.save_app_deployments applied]
        exact keyed
    | deleteApp app =>
        cases applied
        exact keyed.sublist (List.filter_sublist.map _)
    | deleteDeployment deleted =>
        cases applied
        have sameIds : (before.db.deleteDeployment deleted).deployments.map (·.id) =
            (before.db.deployments.filter (·.id ≠ deleted)).map (·.id) := by
          unfold Database.deleteDeployment
          rw [List.map_map]
          apply List.map_congr_left
          intro row _
          dsimp only [Function.comp]
          split_ifs
          · rfl
          · rfl
        rw [sameIds]
        exact keyed.sublist (List.filter_sublist.map _)
    | saveServiceDeployment record =>
        rw [Database.save_service_deployment_shape applied]
        exact keyed
    | appendDeploymentLog deployment line =>
        rw [Database.append_deployment_log_shape applied]
        exact keyed

theorem settled_of_settles {before after : World} (keyed : KeyedDeployments before.db)
    (settles : Settles id op answer) (possible : Possible op before answer after) :
    Settled after.db id := by
  unfold Settles at settles
  split at settles
  · rename_i wanted found
    obtain ⟨rfl, finished⟩ := settles
    rw [(possible_query possible).1]
    have row := load_answer possible rfl
    intro stored member same
    apply finished stored
    rw [← row, ← same]
    exact lookup_of_mem keyed member
  · rename_i deployment
    obtain ⟨rfl, finished⟩ := settles
    rcases possible_write possible with ⟨-, db, applied, rfl⟩ | ⟨-, message, failed⟩
    · exact settled_save applied (fun _ => finished) fun different => absurd rfl different
    · cases failed
  · exact settles.elim

end Store

/-- The state tells whether the deployment is known to be settled. Other tasks may
settle it at any time. -/
def Tracking (id : Uuid) : Behaviour Effects Bool := fun op before answer after =>
  RowsMatch op answer ∧ (Settles id op answer → after = true) ∧
    (before = true → ¬Reopens id op → after = true)

def Spares (id : Uuid) (op : Op) : Prop := ∀ other, other ≠ id → ¬Reopens other op

def Idle (op : Op) : Prop := ∀ id, ¬Reopens id op

/-- Whatever is known before, the program ends in `post`. -/
def Tracked {Value : Type} (id : Uuid) (program : Sys Value) (before : Bool)
    (post : Value → Bool → Prop) : Prop :=
  program.Always (Tracking id) (fun _ op => Spares id op) post before

section Tracked

variable {id : Uuid} {Value Other : Type} {before : Bool}

theorem idle_of_within {names : String → Prop} {rows : ServiceDeployment → Prop} (op : Op)
    (within : op.Within names rows) : Idle op := by
  intro id reopens
  unfold Reopens at reopens
  split at reopens
  · exact within
  · exact reopens

variable {program : Sys Value}

theorem tracked_idle (idle : program.Calls Idle) :
    Tracked id program before fun _ after => before = true → after = true := by
  have kept : program.Always (Tracking id) (fun _ op => Idle op)
      (fun _ after => before = true → after = true) before := by
    apply idle.always
    · intro op now answer after idle held tracks known
      exact tracks.2.2 (held known) (idle id)
    · exact fun known => known
  exact kept.restrict (fun _ _ _ _ tracks => tracks) fun _ op idle other _ => idle other

theorem tracked_spares (spares : program.Calls (Spares id)) :
    Tracked id program before fun _ _ => True := by
  apply spares.always
  · intro op now answer after _ _ _
    trivial
  · trivial

theorem idle_then {continuation : Value → Sys Other} {post : Other → Bool → Prop}
    (idle : program.Calls Idle) (rest : ∀ value after, (before = true → after = true) →
      Tracked id (continuation value) after post) :
    Tracked id (program.bind continuation) before post :=
  always_bind.mpr ((tracked_idle idle).mono rest)

theorem tracked_chain {program : Fallible Value} {continuation : Value → Fallible Other}
    {middle : Value → Bool → Prop} {post : Other → Bool → Prop}
    (first : Tracked id program.run before fun result after =>
      ∀ value, result = .ok value → middle value after)
    (rest : ∀ value after, middle value after →
      Tracked id (continuation value).run after fun result final =>
        ∀ value, result = .ok value → post value final) :
    Tracked id (program >>= continuation).run before fun result final =>
      ∀ value, result = .ok value → post value final := by
  apply Always.run_bind first
  intro result after reached
  cases result with
  | ok value => exact rest value after (reached value rfl)
  | error message =>
      intro value absurd
      cases absurd

theorem idle_chain {program : Fallible Value} {continuation : Value → Fallible Other}
    {post : Other → Bool → Prop} (idle : program.run.Calls Idle)
    (rest : ∀ value after, (before = true → after = true) →
      Tracked id (continuation value).run after fun result final =>
        ∀ value, result = .ok value → post value final) :
    Tracked id (program >>= continuation).run before fun result final =>
      ∀ value, result = .ok value → post value final := by
  apply tracked_chain ((tracked_idle idle).mono fun _ _ kept _ _ => kept)
  exact rest

theorem idle_lift_chain {continuation : Value → Fallible Other} {post : Other → Bool → Prop}
    (idle : program.Calls Idle) (rest : ∀ value after, (before = true → after = true) →
      Tracked id (continuation value).run after fun result final =>
        ∀ value, result = .ok value → post value final) :
    Tracked id ((liftM program : Fallible Value) >>= continuation).run before fun result final =>
      ∀ value, result = .ok value → post value final := by
  exact (tracked_idle idle).run_lift_bind rest

theorem tracked_return {value : Value} {post : Value → Bool → Prop} (held : post value before) :
    Tracked id (Pure.pure value : Fallible Value).run before fun result final =>
      ∀ value, result = .ok value → post value final := by
  apply always_run_pure.mpr
  intro other same
  cases same
  exact held

theorem tracked_throw {message : String} {post : Value → Bool → Prop} :
    Tracked id (throw message : Fallible Value).run before fun result final =>
      ∀ value, result = .ok value → post value final := by
  apply always_run_throw.mpr
  intro other absurd
  cases absurd

end Tracked

section Job

variable {id : Uuid} {before : Bool}

def LoadTells (id : Uuid) (found : Option Deployment) (known : Bool) : Prop :=
  (∀ deployment, found = some deployment → deployment.id = id) ∧
    ((∀ deployment, found = some deployment → deployment.status.inProgress = false) → known = true)

theorem query_idle {wanted : Query} : (Store.query wanted).run.Calls Idle :=
  op_calls fun _ reopens => reopens

theorem load_tracked : Tracked id (Store.getDeployment id).run before fun result after =>
    ∀ found, result = .ok found → LoadTells id found after := by
  unfold Store.getDeployment
  apply always_run_bind.mpr
  apply always_op (fun _ _ reopens => reopens)
  rintro (message | row) after tracks
  · intro found absurd
    cases absurd
  · cases row with
    | none =>
        apply tracked_return
        refine ⟨fun _ absurd => (by cases absurd), fun _ => ?_⟩
        exact tracks.2.1 ⟨rfl, fun _ absurd => by cases absurd⟩
    | some row =>
        apply idle_chain query_idle
        intro rows final kept
        apply tracked_return
        constructor
        · intro deployment same
          cases same
          exact tracks.1 row rfl
        · intro finished
          apply kept
          apply tracks.2.1
          refine ⟨rfl, fun other same => ?_⟩
          cases same
          exact finished { row with serviceDeployments := rows } rfl

theorem should_continue_tracked (message : String) :
    Tracked id (shouldContinueDeployment id message).run before fun result after =>
      ∀ continues, result = .ok continues → continues = false → after = true := by
  unfold shouldContinueDeployment
  apply tracked_chain load_tracked
  intro found after tells
  cases found with
  | none =>
      apply tracked_return
      exact fun _ => tells.2 fun _ absurd => by cases absurd
  | some deployment =>
      dsimp only
      split_ifs with stopped
      · apply idle_lift_chain (ignore_calls ((log_quiet _ _).mono idle_of_within))
        intro _ final kept
        apply tracked_return
        intro _
        apply kept
        apply tells.2
        intro other same
        cases same
        rw [stopped]
        rfl
      · apply tracked_return
        exact fun absurd => by cases absurd

variable {deployment : Deployment}

theorem spares_own (same : deployment.id = id) :
    Spares id (.write (.saveDeployment deployment)) := by
  intro other different reopens
  exact different (reopens.1.symm.trans same)

theorem idle_save (finished : deployment.status.inProgress = false) :
    Idle (.write (.saveDeployment deployment)) := by
  intro id reopens
  rw [reopens.2] at finished
  cases finished

theorem update_status_spares (same : deployment.id = id) (status : DeploymentStatus) :
    (updateStatus deployment status).run.Calls (Spares id) := by
  unfold updateStatus
  apply Calls.run_lift_bind (op_calls fun _ _ reopens => reopens)
  intro now
  apply Calls.run_lift_bind (ignore_calls (op_calls fun _ _ reopens => reopens))
  intro _
  exact op_calls (spares_own same)

theorem mark_stopped_idle (previous : Deployment) :
    (markDeploymentStopped previous).run.Calls Idle := by
  unfold markDeploymentStopped
  apply Calls.run_lift_bind (op_calls fun _ reopens => reopens)
  intro finishedAt
  apply Calls.run_bind
  · unfold Store.getDeployment
    apply Calls.run_bind query_idle
    intro row
    split
    · exact calls_pure _
    · apply Calls.run_bind query_idle
      intro rows
      exact calls_pure _
  intro loaded
  exact op_calls (idle_save rfl)

theorem restore_idle (snapshot : App) (isRollback : Bool) :
    (restoreIfRollback snapshot isRollback).run.Calls Idle :=
  restore_calls snapshot isRollback (fun _ => ⟨fun _ reopens => reopens, fun _ reopens => reopens⟩)
    (fun _ reopens => reopens) fun _ _ reopens => reopens

theorem finish_rollout_tracked {plan : Plan} (same : plan.deployment.id = id) (rollout : Rollout)
    (isRollback : Bool) : Tracked id (finishRollout plan rollout isRollback).run before
      fun result after => ∀ done, result = .ok done → after = true := by
  unfold finishRollout
  apply idle_chain (restore_idle _ _)
  intro _ restored _
  apply idle_chain query_idle
  intro existing listed _
  apply idle_lift_chain (utc_now_quiet.mono idle_of_within)
  intro startedAt started _
  apply idle_lift_chain (utc_now_quiet.mono idle_of_within)
  intro finishedAt finished _
  apply @tracked_chain _ _ _ _ _ _ fun _ known => known = true
  · apply op_always.mpr
    refine ⟨spares_own same, fun answer after tracks value saved => ?_⟩
    apply tracks.2.1
    rw [saved]
    exact ⟨same, rfl⟩
  intro _ saved known
  apply idle_lift_chain ((send_proxy_refresh_quiet _ _).mono idle_of_within)
  intro _ refreshed keptRefreshed
  apply idle_lift_chain ((sweep_old_calls _ _).mono idle_of_within)
  intro _ swept keptSwept
  have marks : (Program.forEach (fun previous => (markDeploymentStopped previous).run)
      plan.previous).Calls Idle := calls_for_each _ fun previous _ => mark_stopped_idle previous
  apply (tracked_idle marks).mono
  intro result after kept done _
  exact kept (keptSwept (keptRefreshed known))

theorem deploy_services_tracked (same : deployment.id = id) (runtime : Runtime) (app : App)
    (networkName : String) (images : ServiceImages) (sharedEnv : List (String × String))
    (strategy : RolloutStrategy) (isRollback : Bool) :
    Tracked id (deployServices runtime app deployment networkName images sharedEnv strategy
      isRollback).run before fun result after => ∀ done, result = .ok done → after = true := by
  unfold deployServices
  apply idle_chain ((sort_services_quiet _).mono idle_of_within)
  intro sorted _ _
  apply idle_chain ((get_previous_running_quiet _ _).mono idle_of_within)
  intro previous _ _
  dsimp only
  apply idle_lift_chain ((rollout_services_calls _ sorted).mono idle_of_within)
  rintro ⟨outcome, rollout⟩ rolled _
  cases outcome with
  | error message =>
      have undone := undo_tracked rollout
      apply idle_lift_chain (undone.mono idle_of_within)
      intro _ _ _
      exact tracked_throw
  | ok _ => exact finish_rollout_tracked same rollout isRollback

theorem start_deployment_tracked (same : deployment.id = id) (runtime : Runtime)
    (job : DeploymentJob) (app : App) (images : ServiceImages) (isRollback : Bool) :
    Tracked id (startDeployment runtime job deployment app images isRollback).run before
      fun result after => ∀ done, result = .ok done → after = true := by
  unfold startDeployment
  apply tracked_chain ((tracked_spares (update_status_spares same .starting)).mono
    fun _ _ held _ _ => held)
  intro _ starting _
  rw [same]
  apply tracked_chain (should_continue_tracked _)
  intro continues after stopped
  cases continues with
  | false => exact tracked_return (stopped rfl)
  | true =>
      have network : (external (.createNetwork app.networkName)).Calls Idle :=
        (external_quiet _).mono idle_of_within
      apply @idle_chain _ _ _ _ (ExceptT.mk (external (.createNetwork app.networkName))) _ _ network
      intro _ connected _
      exact deploy_services_tracked same _ _ _ _ _ _ _

theorem checkout_spares (same : deployment.id = id) (runtime : Runtime) (job : DeploymentJob) :
    (checkoutSource runtime job deployment).run.Calls (Spares id) := by
  unfold checkoutSource
  split
  · exact calls_pure _
  · apply Calls.run_bind (update_status_spares same .cloning)
    intro _
    apply Calls.run_bind ((clone_repo_quiet runtime job).mono fun op quiet other _ =>
      idle_of_within op quiet other)
    intro path
    exact calls_pure _

theorem source_images_tracked (same : deployment.id = id) (runtime : Runtime) (job : DeploymentJob)
    (app : App) :
    Tracked id (sourceImages runtime job deployment app).run before fun result after =>
      ∀ images, result = .ok images → images = none → after = true := by
  unfold sourceImages
  apply tracked_chain ((tracked_spares (checkout_spares same runtime job)).mono
    fun _ _ held _ _ => held)
  intro repoPath _ _
  have removes : (removeCheckout repoPath).Calls Idle :=
    (remove_checkout_quiet repoPath).mono idle_of_within
  rw [same]
  apply tracked_chain (should_continue_tracked _)
  intro continues checked stopped
  cases continues with
  | false =>
      apply idle_lift_chain removes
      intro _ after kept
      exact tracked_return fun _ => kept (stopped rfl)
  | true =>
      apply tracked_chain ((tracked_spares (update_status_spares same .building)).mono
        fun _ _ held _ _ => held)
      intro _ building _
      apply idle_chain ((build_service_images_quiet _ _ _ _ _).mono idle_of_within)
      intro images built _
      apply idle_lift_chain removes
      intro _ removed _
      apply tracked_chain (should_continue_tracked _)
      intro continues after stopped
      cases continues with
      | false => exact tracked_return fun _ => stopped rfl
      | true => exact tracked_return fun absurd => by cases absurd

theorem job_images_tracked (same : deployment.id = id) (runtime : Runtime) (job : DeploymentJob)
    (app : App) (source : Option Deployment) :
    Tracked id (jobImages runtime job deployment app source).run before fun result after =>
      ∀ images, result = .ok images → images = none → after = true := by
  cases source with
  | none => exact source_images_tracked same runtime job app
  | some source =>
      unfold jobImages
      apply idle_lift_chain (ignore_calls ((log_quiet _ _).mono idle_of_within))
      intro _ logged _
      apply @tracked_chain _ _ _ _ _ _ fun _ _ => True
      · exact always_pure.mpr fun _ _ => trivial
      intro images after _
      exact tracked_return fun absurd => by cases absurd

theorem load_rollback_source_idle (job : DeploymentJob) :
    (loadRollbackSource job).run.Calls Idle := by
  unfold loadRollbackSource
  split
  · apply Calls.run_bind
    · unfold Store.getDeployment
      apply Calls.run_bind query_idle
      intro row
      split
      · exact calls_pure _
      · apply Calls.run_bind query_idle
        intro rows
        exact calls_pure _
    intro found
    split
    · exact Calls.run_return (ensure_calls _ _)
    · exact calls_pure _
  · exact calls_pure _

/-- A job that returns `Ok` has settled its deployment. -/
theorem process_job_tracked (runtime : Runtime) (job : DeploymentJob) :
    Tracked job.deploymentId (processJob runtime job).run before fun result after =>
      ∀ done, result = .ok done → after = true := by
  unfold processJob
  apply tracked_chain load_tracked
  intro found _ tells
  cases found with
  | none => exact tracked_throw
  | some deployment =>
      have same : deployment.id = job.deploymentId := tells.1 deployment rfl
      apply idle_chain (ensure_calls _ _)
      intro _ _ _
      rw [same]
      apply tracked_chain (should_continue_tracked _)
      intro continues _ stopped
      cases continues with
      | false => exact tracked_return (stopped rfl)
      | true =>
          dsimp only
          apply idle_chain ((get_app_quiet _).mono idle_of_within)
          intro currentApp _ _
          cases currentApp with
          | none => exact tracked_throw
          | some currentApp =>
              dsimp only
              apply idle_chain (load_rollback_source_idle job)
              intro source _ _
              apply tracked_chain (job_images_tracked same runtime job _ source)
              intro images _ skipped
              cases images with
              | none => exact tracked_return (skipped rfl)
              | some images => exact start_deployment_tracked same runtime job _ _ _

theorem job_body_tracked (runtime : Runtime) (job : DeploymentJob) :
    Tracked job.deploymentId (jobBody runtime job) before fun result after =>
      result = .ok () → after = true := by
  unfold jobBody
  apply Always.bind (process_job_tracked runtime job)
  intro result after settled
  apply idle_then ((cleanup_quiet runtime job).mono idle_of_within)
  intro _ final kept
  apply always_pure.mpr
  exact fun done => kept (settled () done)

end Job

def storeFails : (op : Op) → op.Answer → Bool
  | .query _, .error _ => true
  | .write (.saveDeployment _), .error _ => true
  | _, _ => false

def Recording (id : Uuid) : Behaviour Effects Bool := fun op before answer after =>
  Tracking id op before answer after ∧ storeFails op answer = false

/-- Without faults of the store the deployment ends up settled. -/
def Recorded (id : Uuid) (program : Sys Unit) (before : Bool) : Prop :=
  program.Always (Recording id) (fun _ op => Spares id op) (fun _ after => after = true) before

section Record

variable {id : Uuid} {before : Bool}

theorem load_recorded : (Store.getDeployment id).run.Always (Recording id)
    (fun _ op => Spares id op) (fun result after => ∃ found, result = .ok found ∧
      LoadTells id found after) before := by
  have tells := (@load_tracked id before).restrict
    (fun _ _ _ _ (records : Recording id _ _ _ _) => records.1) fun _ _ spares => spares
  have answers : (Store.getDeployment id).run.Always (Recording id) (fun _ op => Spares id op)
      (fun result _ => ∃ found, result = .ok found) before := by
    unfold Store.getDeployment
    apply always_run_bind.mpr
    apply always_op (fun _ _ reopens => reopens)
    rintro (message | row) after records
    · cases records.2
    · cases row with
      | none => exact always_pure.mpr ⟨none, rfl⟩
      | some row =>
          apply always_run_bind.mpr
          apply always_op (fun _ _ reopens => reopens)
          rintro (message | rows) final records
          · cases records.2
          · exact always_pure.mpr ⟨_, rfl⟩
  apply (tells.and answers).mono
  rintro result after ⟨told, found, rfl⟩
  exact ⟨found, rfl, told found rfl⟩

theorem mark_failed_recorded (message : String) : Recorded id (markFailed id message) before := by
  unfold markFailed
  apply load_recorded.bind
  rintro result after ⟨found, rfl, own, settled⟩
  cases found with
  | none => exact always_pure.mpr (settled fun _ absurd => by cases absurd)
  | some deployment =>
      dsimp only
      split_ifs with stopped
      · apply always_pure.mpr
        apply settled
        intro other same
        cases same
        rw [stopped]
        rfl
      · apply always_bind.mpr
        apply always_op (fun _ _ reopens => reopens)
        intro now read _
        apply always_bind.mpr
        apply always_bind.mpr
        apply always_op (fun _ _ reopens => reopens)
        intro _ logged _
        apply always_pure.mpr
        apply always_bind.mpr
        apply op_always.mpr
        refine ⟨spares_own (own deployment rfl), ?_⟩
        rintro (failure | _) saved records
        · cases records.2
        · apply always_pure.mpr
          exact records.1.2.1 ⟨own deployment rfl, rfl⟩

end Record

/-- The job that the worker received last, whether its body has begun, and the jobs
whose body has ended. -/
structure Desk where
  held : Option DeploymentJob
  begun : Bool
  finished : List DeploymentJob

def Desk.empty : Desk := ⟨none, false, []⟩

section Desk

variable {Caller : Type}

def Desk.after (desk : Desk) : Event Effects (Option Caller) → Desk
  | ⟨none, .receiveJob, some job⟩ => { desk with held := some job }
  | ⟨none, .loadFlag .paused, false⟩ => { desk with begun := true }
  | ⟨none, .storeFlag .running false, _⟩ =>
      if desk.begun then ⟨none, false, desk.held.toList ++ desk.finished⟩ else desk
  | _ => desk

def deskOf (history : List (Event Effects (Option Caller))) : Desk :=
  history.foldl Desk.after Desk.empty

theorem desk_of_append (history : List (Event Effects (Option Caller)))
    (event : Event Effects (Option Caller)) :
    deskOf (history ++ [event]) = (deskOf history).after event := by
  unfold deskOf
  rw [List.foldl_append, List.foldl_cons, List.foldl_nil]

variable {desk : Desk}

theorem desk_after_caller {event : Event Effects (Option Caller)} (byCaller : event.thread ≠ none) :
    desk.after event = desk := by
  unfold Desk.after
  split
  · exact absurd rfl byCaller
  · exact absurd rfl byCaller
  · exact absurd rfl byCaller
  · rfl

theorem desk_after_in_job {thread : Option Caller} {op : Op} {answer : op.Answer} (inJob : InJob op)
    : desk.after ⟨thread, op, answer⟩ = desk := by
  unfold Desk.after
  split
  · rename_i same
    cases same
    exact inJob.elim
  · rename_i same
    cases same
    exact inJob.elim
  · rename_i same
    cases same
    exact inJob.elim
  · rfl

def Desk.At (desk : Desk) : Stage → Prop
  | .waiting => desk.begun = false
  | .raising job | .checking job | .clearing job => desk.held = some job ∧ desk.begun = false
  | .working job => desk.held = some job ∧ desk.begun = true
  | .marking job => desk.begun = false ∧ job ∈ desk.finished

theorem desk_after_lowered :
    desk.after (⟨none, .storeFlag .running false, ()⟩ : Event Effects (Option Caller)) =
      if desk.begun then ⟨none, false, desk.held.toList ++ desk.finished⟩ else desk := rfl

theorem desk_moves {stage moved : Stage} {op : Op} {answer : op.Answer}
    {calls : DeploymentJob → Op → Prop} (inJob : ∀ job op, calls job op → InJob op)
    (lies : desk.At stage) (moves : Moves calls stage op answer moved) :
    (desk.after (⟨none, op, answer⟩ : Event Effects (Option Caller))).At moved ∧
      ∀ job ∈ (desk.after (⟨none, op, answer⟩ : Event Effects (Option Caller))).finished,
        job ∈ desk.finished ∨ stage.begun = some job := by
  cases moves with
  | closed => exact ⟨lies, fun _ member => Or.inl member⟩
  | received job => exact ⟨⟨rfl, lies⟩, fun _ member => Or.inl member⟩
  | dropped job => exact ⟨lies, fun _ member => Or.inl member⟩
  | raised job => exact ⟨lies, fun _ member => Or.inl member⟩
  | held job => exact ⟨lies, fun _ member => Or.inl member⟩
  | begun job => exact ⟨⟨lies.1, rfl⟩, fun _ member => Or.inl member⟩
  | again job =>
      rw [desk_after_lowered, lies.2]
      exact ⟨lies, fun _ member => Or.inl member⟩
  | tired job =>
      rw [desk_after_lowered, lies.2]
      exact ⟨lies.2, fun _ member => Or.inl member⟩
  | works job answer called =>
      rw [desk_after_in_job (inJob job op called)]
      exact ⟨lies, fun _ member => Or.inl member⟩
  | done job =>
      rw [desk_after_lowered, lies.2, lies.1]
      refine ⟨rfl, fun other member => ?_⟩
      rcases List.mem_cons.mp member with rfl | earlier
      · exact Or.inr rfl
      · exact Or.inl earlier
  | failed job =>
      rw [desk_after_lowered, lies.2, lies.1]
      refine ⟨⟨rfl, List.mem_cons_self⟩, fun other member => ?_⟩
      rcases List.mem_cons.mp member with rfl | earlier
      · exact Or.inr rfl
      · exact Or.inl earlier
  | marks job answer called =>
      rw [desk_after_in_job (inJob job op called)]
      exact ⟨lies, fun _ member => Or.inl member⟩
  | marked job answer called =>
      rw [desk_after_in_job (inJob job op called)]
      exact ⟨lies.1, fun _ member => Or.inl member⟩

end Desk

section Runs

variable {Caller : Type}

def IdleSettled (history : List (Event Effects (Option Caller))) (db : Database) : Prop :=
  ∀ job ∈ (deskOf history).finished, Settled db job.deploymentId

/-- A deployment that the worker has taken is not reopened by another task, a failure
record is not interrupted by the store, and nobody looks while one is being made. -/
structure Orderly (runtime : Runtime) (patience : Nat)
    (history : List (Event Effects (Option Caller)))
    (pool : Pool Effects (Option Caller) Unit World) (event : Event Effects (Option Caller)) :
    Prop where
  others : event.thread ≠ none →
    ∀ job ∈ (deskOf history).held.toList ++ (deskOf history).finished,
      ¬Reopens job.deploymentId event.op
  store : event.thread = none → InFailureRecord runtime patience (pool.threads none) →
    storeFails event.op event.answer = false
  looks : Paused history → ObservesIdle event →
    ¬InFailureRecord runtime patience (pool.threads none)

def tracked (runtime : Runtime) (world : World) : Knowledge where
  calls job op := InJob op ∧ Spares job.deploymentId op
  inJob _ _ called := called.1
  body job rest := Residual (jobBody runtime job) rest ∧ ∃ known,
    (known = true → Settled world.db job.deploymentId) ∧
      Tracked job.deploymentId rest known fun result after => result = .ok () → after = true
  record job rest := (∃ result, Residual (recordFailure job result) rest) ∧ ∃ known,
    (known = true → Settled world.db job.deploymentId) ∧ Recorded job.deploymentId rest known

/-- The same, of a failure record that `program` is in. -/
def trackedAt (runtime : Runtime) (patience : Nat) (world : World) (program : Sys Unit) :
    Knowledge where
  calls := (tracked runtime world).calls
  inJob := (tracked runtime world).inJob
  body := (tracked runtime world).body
  record job rest := (tracked runtime world).record job rest ∧ ∃ fuel,
    program = rest.bind fun _ => run runtime patience fuel

variable {runtime : Runtime} {patience : Nat} {history : List (Event Effects (Option Caller))}
  {pool after : Pool Effects (Option Caller) Unit World} {event : Event Effects (Option Caller)}
  {op : Op} {answer : op.Answer} {world : World}

theorem tracking_possible {next : World} {id : Uuid} {known : Bool}
    (keyed : KeyedDeployments world.db) (possible : Possible op world answer next)
    (sound : known = true → Settled world.db id) :
    Tracking id op known answer (decide (Settled next.db id)) := by
  refine ⟨rows_match possible, fun settles => ?_, fun isKnown quiet => ?_⟩
  · exact decide_eq_true (settled_of_settles keyed settles possible)
  · exact decide_eq_true (settled_kept (sound isKnown) quiet possible)

theorem tracked_follows {next : World} {program : Sys Unit} (keyed : KeyedDeployments world.db)
    (possible : Possible op world answer next)
    (store : InFailureRecord runtime patience program → storeFails op answer = false) :
    (trackedAt runtime patience world program).Follows runtime (tracked runtime next) op answer where
  begin job :=
    ⟨Residual.whole, false, fun absurd => (by cases absurd), job_body_tracked runtime job⟩
  body job continued left := by
    obtain ⟨rest, known, sound, tracks⟩ := left
    have both := always_call.mp tracks
    have inJob : InJob op := ((job_body_in_job job).residual rest).head
    exact ⟨⟨inJob, both.1⟩, rest.next answer, _, of_decide_eq_true,
      both.2 answer _ (tracking_possible keyed possible sound)⟩
  done job result lowers left := by
    obtain ⟨rest, known, sound, tracks⟩ := left
    have ended := always_pure.mp tracks
    refine ⟨⟨result, Residual.whole⟩, known, fun isKnown => ?_, ?_⟩
    · apply settled_kept (sound isKnown) _ possible
      rw [lowers]
      exact fun reopens => reopens
    · cases result with
      | ok _ => exact always_pure.mpr (ended rfl)
      | error message => exact mark_failed_recorded message
  record job continued left := by
    obtain ⟨⟨⟨result, rest⟩, known, sound, records⟩, fuel, here⟩ := left
    have both := always_call.mp records
    have inJob : InJob op := ((record_failure_in_job job result).residual rest).head
    have works := store ⟨fuel, job, result, op, continued, rest, here⟩
    exact ⟨⟨inJob, both.1⟩, ⟨result, rest.next answer⟩, _, of_decide_eq_true,
      both.2 answer _ ⟨tracking_possible keyed possible sound, works⟩⟩

structure SettledInvariant (runtime : Runtime) (patience : Nat)
    (history : List (Event Effects (Option Caller)))
    (pool : Pool Effects (Option Caller) Unit World) : Prop where
  callers : ∀ caller, (pool.threads (some caller)).Calls LeavesRunning
  keyed : KeyedDeployments pool.state.db
  worker : ∃ stage, At runtime patience (tracked runtime pool.state) stage (pool.threads none) ∧
    (stage.Raised → pool.state.running = true) ∧ (deskOf history).At stage ∧
      ∀ job ∈ (deskOf history).finished,
        (∀ current, stage.begun = some current → job.deploymentId ≠ current.deploymentId) →
          Settled pool.state.db job.deploymentId

theorem settled_start (runtime : Runtime) (patience fuel : Nat) {callers : Caller → Sys Unit}
    (leaves : ∀ caller, (callers caller).Calls LeavesRunning) (keyed : KeyedDeployments world.db) :
    SettledInvariant runtime patience [] (withWorker runtime patience fuel callers world) where
  callers := leaves
  keyed := keyed
  worker := ⟨.waiting, At.waiting fuel, fun raised => raised.elim, rfl,
    fun _ member => absurd member List.not_mem_nil⟩

variable {stage : Stage} {calls : DeploymentJob → Op → Prop}

theorem moves_spare (spares : ∀ job op, calls job op → Spares job.deploymentId op) {moved : Stage}
    (moves : Moves calls stage op answer moved) {id : Uuid}
    (other : ∀ current, stage.begun = some current → id ≠ current.deploymentId) :
    ¬Reopens id op := by
  cases moves with
  | works job answer called => exact spares job op called id (other job rfl)
  | marks job answer called => exact spares job op called id (other job rfl)
  | marked job answer called => exact spares job op called id (other job rfl)
  | _ => exact fun reopens => reopens

/-- The job in hand stays in hand until the worker waits again. -/
theorem moves_begun {moved : Stage} (moves : Moves calls stage op answer moved)
    {job : DeploymentJob} (begun : stage.begun = some job) :
    moved.begun = some job ∨ moved = .waiting := by
  cases moves with
  | works other answer called => exact Or.inl begun
  | done other => exact Or.inr rfl
  | failed other => exact Or.inl begun
  | marks other answer called => exact Or.inl begun
  | marked other answer called => exact Or.inr rfl
  | _ => cases begun

theorem nothing_in_hand {program : Sys Unit}
    (here : At runtime patience (tracked runtime world) stage program) (lowered : ¬stage.Raised)
    (recorded : ¬InFailureRecord runtime patience program) : stage.begun = none := by
  cases here with
  | working fuel job left => exact absurd trivial lowered
  | marking fuel job left =>
      obtain ⟨⟨result, rest⟩, -⟩ := left
      exact absurd ⟨fuel, job, result, _, _, rest, rfl⟩ recorded
  | _ => rfl

theorem observes_idle_op (seen : ObservesIdle event) : event.op = .loadFlag .running := by
  obtain ⟨thread, op, answer⟩ := event
  unfold ObservesIdle at seen
  split at seen
  · rename_i same
    cases same
    rfl
  · exact seen.elim

theorem desk_after_look {desk : Desk} (look : event.op = .loadFlag .running) :
    desk.after event = desk := by
  obtain ⟨thread, op, answer⟩ := event
  cases look
  cases thread with
  | none => rfl
  | some caller => exact desk_after_caller (Option.some_ne_none caller)

section Step

variable [DecidableEq Caller]

theorem settled_worker_step (inv : SettledInvariant runtime patience history pool)
    (taken : Pool.Step Possible pool event after) (met : Orderly runtime patience history pool event)
    (byWorker : event.thread = none) :
    SettledInvariant runtime patience (history ++ [event]) after := by
  obtain ⟨next, ready, possible, continued⟩ := taken.own
  obtain ⟨stage, here, raised, lies, settled⟩ := inv.worker
  rw [byWorker] at ready continued
  have linked : At runtime patience (trackedAt runtime patience pool.state (pool.threads none))
      stage (pool.threads none) :=
    here.mono (fun _ _ _ left => left) fun fuel _ _ _ same left => ⟨left, fuel, same⟩
  obtain ⟨moved, there, moves, recorded⟩ :=
    at_moves linked ready (tracked_follows inv.keyed possible (met.store byWorker))
  have inJob := (tracked runtime pool.state).inJob
  have spares : ∀ job op, (tracked runtime pool.state).calls job op →
      Spares job.deploymentId op := fun _ _ called => called.2
  obtain ⟨thread, op, answer⟩ := event
  cases byWorker
  obtain ⟨liesAfter, fromDesk⟩ := desk_moves inJob lies moves
  refine ⟨fun caller => ?_, keyed_kept inv.keyed possible, moved, ?_,
    moves_raised inJob moves possible raised, ?_, ?_⟩
  · rw [taken.other (Option.some_ne_none caller)]
    exact inv.callers caller
  · rw [continued]
    exact there
  · rw [desk_of_append]
    exact liesAfter
  · rw [desk_of_append]
    intro job member apart
    have left : ∀ current, stage.begun = some current → job.deploymentId = current.deploymentId →
        Settled after.state.db job.deploymentId := by
      intro current begun same
      rcases moves_begun moves begun with still | waits
      · exact absurd same (apart current still)
      · obtain ⟨-, known, sound, ended⟩ := recorded current begun waits
        have isKnown : known = true := by
          unfold Recorded at ended
          rw [always_pure] at ended
          exact ended
        rw [same]
        exact sound isKnown
    by_cases inHand : ∃ current, stage.begun = some current ∧
        job.deploymentId = current.deploymentId
    · obtain ⟨current, begun, same⟩ := inHand
      exact left current begun same
    · have other : ∀ current, stage.begun = some current →
          job.deploymentId ≠ current.deploymentId :=
        fun current begun same => inHand ⟨current, begun, same⟩
      rcases fromDesk job member with earlier | begun
      · exact settled_kept (settled job earlier other) (moves_spare spares moves other) possible
      · exact left job begun rfl

theorem settled_caller_step (inv : SettledInvariant runtime patience history pool)
    (taken : Pool.Step Possible pool event after) (met : Orderly runtime patience history pool event)
    (byCaller : event.thread ≠ none) :
    SettledInvariant runtime patience (history ++ [event]) after := by
  obtain ⟨next, ready, possible, continued⟩ := taken.own
  obtain ⟨caller, isCaller⟩ := Option.ne_none_iff_exists'.mp byCaller
  obtain ⟨stage, here, raised, lies, settled⟩ := inv.worker
  have own : (@Program.call Effects Unit event.op next).Calls LeavesRunning := by
    rw [← ready, isCaller]
    exact inv.callers caller
  have running := (possible_untouched possible).running own.head
  have keeps : ∀ job ∈ (deskOf history).held.toList ++ (deskOf history).finished,
      Settled pool.state.db job.deploymentId → Settled after.state.db job.deploymentId :=
    fun job member held => settled_kept held (met.others byCaller job member) possible
  refine ⟨fun other => ?_, keyed_kept inv.keyed possible, stage, ?_,
    fun needs => running.trans (raised needs), ?_, ?_⟩
  · by_cases same : some other = event.thread
    · rw [same, continued]
      exact own.next event.answer
    · rw [taken.other same]
      exact inv.callers other
  · rw [taken.other (Ne.symm byCaller)]
    apply here.mono
    · rintro job rest rfl ⟨left, known, sound, tracks⟩
      refine ⟨left, known, fun isKnown => keeps job ?_ (sound isKnown), tracks⟩
      rw [lies.1]
      exact List.mem_cons_self
    · rintro fuel job rest rfl _ ⟨left, known, sound, records⟩
      refine ⟨left, known, fun isKnown => keeps job ?_ (sound isKnown), records⟩
      exact List.mem_append_right _ lies.2
  · rw [desk_of_append, desk_after_caller byCaller]
    exact lies
  · rw [desk_of_append, desk_after_caller byCaller]
    intro job member apart
    exact keeps job (List.mem_append_right _ member) (settled job member apart)

theorem settled_invariant {fuel : Nat} {callers : Caller → Sys Unit} {world : World}
    (leaves : ∀ caller, (callers caller).Calls LeavesRunning) (keyed : KeyedDeployments world.db)
    (trace : Pool.Trace Possible (Orderly runtime patience)
      (withWorker runtime patience fuel callers world) history pool) :
    SettledInvariant runtime patience history pool := by
  apply trace.invariant
  · exact settled_start runtime patience fuel leaves keyed
  · intro history pool event after _ inv taken met
    by_cases byWorker : event.thread = none
    · exact settled_worker_step inv taken met byWorker
    · exact settled_caller_step inv taken met byWorker

/-- An orderly run that finds the worker idle during a pause has settled every job that
has ended. -/
theorem idle_settled (fuel : Nat) {callers : Caller → Sys Unit}
    (leaves : ∀ caller, (callers caller).Calls LeavesRunning) {world : World}
    (keyed : KeyedDeployments world.db)
    (trace : Pool.Trace Possible (Orderly runtime patience)
      (withWorker runtime patience fuel callers world) (history ++ [event]) pool)
    (paused : Paused history) (idle : ObservesIdle event) :
    IdleSettled (history ++ [event]) pool.state.db := by
  obtain ⟨earlier, before, taken, met⟩ := trace.last
  obtain ⟨stage, here, raised, -, settled⟩ := (settled_invariant leaves keyed before).worker
  obtain ⟨next, -, possible, -⟩ := taken.own
  have look := observes_idle_op idle
  have lowered : ¬stage.Raised := by
    intro needs
    have clear := observes_idle idle possible
    rw [raised needs] at clear
    cases clear
  have nothing := nothing_in_hand here lowered (met.looks paused idle)
  have sameStore : pool.state.db = earlier.state.db := by
    apply possible_db possible
    intro change same
    rw [look] at same
    cases same
  intro job member
  rw [desk_of_append, desk_after_look look] at member
  rw [sameStore]
  apply settled job member
  intro current begun
  rw [nothing] at begun
  cases begun

end Step

theorem paused_of_any {isPause : Event Effects (Option Caller) → Bool}
    (pauses : ∀ event, isPause event = true → event.op = .storeFlag .paused true)
    (somePause : history.any isPause = true)
    (unresumed : history.all (fun event => decide (event.op ≠ .storeFlag .paused false)) = true) :
    Paused history := by
  obtain ⟨event, member, isIt⟩ := List.any_eq_true.mp somePause
  obtain ⟨before, later, rfl⟩ := List.append_of_mem member
  refine ⟨before, event, later, rfl, pauses event isIt, fun other inLater resumes => ?_⟩
  have inAll : other ∈ before ++ event :: later :=
    List.mem_append_right _ (List.mem_cons_of_mem _ inLater)
  have different := of_decide_eq_true (List.all_eq_true.mp unresumed other inAll)
  exact different resumes

end Runs

def brokenNetwork : system.Policy
  | .external (.createNetwork _), _ => .error "network driver failed"
  | op, world => calm op world

theorem broken_network_admitted (op : Op) (world : World) :
    system.Admits op (brokenNetwork op world) world := by
  cases op with
  | newUuid => exact world.fresh_uuid_new
  | _ => trivial

def isPause (event : Event Effects (Option Unit)) : Bool :=
  decide (event.op = .storeFlag .paused true)

/-- What a run has come to when the pauser is about to look at the flag. -/
structure Sighting where
  paused : Bool
  unresumed : Bool
  running : Bool
  pauser : Option Op
  finished : List DeploymentJob
  status : Option DeploymentStatus
deriving DecidableEq

def sighting (reached : List (Event Effects (Option Unit)) × Pool Effects (Option Unit) Unit World) :
    Sighting where
  paused := reached.1.any isPause
  unresumed := reached.1.all fun event => decide (event.op ≠ .storeFlag .paused false)
  running := reached.2.state.running
  pauser := nextCall (reached.2.threads (some ()))
  finished := (deskOf reached.1).finished
  status := reached.2.state.db.statusOf demoJob.deploymentId

variable {pool : Pool Effects (Option Unit) Unit World}

theorem look_taken (ready : nextCall (pool.threads (some ())) = some (.loadFlag .running))
    (lowered : pool.state.running = false) :
    ∃ after, Pool.Step Possible pool ⟨some (), .loadFlag .running, false⟩ after ∧
      after.state = pool.state := by
  cases program : pool.threads (some ()) with
  | pure value =>
      rw [program] at ready
      cases ready
  | call op next =>
      rw [program] at ready
      cases ready
      have answered : Possible (Op.loadFlag .running) pool.state false pool.state :=
        ⟨(), trivial, Prod.ext lowered rfl⟩
      exact ⟨_, Pool.Step.call program answered, rfl⟩

/-- The network cannot be created. The pauser finds the worker idle before the failure
is recorded: the job has ended, and its deployment would be replayed. -/
theorem failed_job_replayed :
    ∃ history event pool, Pool.Trace Possible (fun _ _ _ => True) demoPause (history ++ [event])
        pool ∧ Paused history ∧ ObservesIdle event ∧
      demoJob ∈ (deskOf (history ++ [event])).finished ∧
      pool.state.db.statusOf demoJob.deploymentId = some .starting ∧
      ¬IdleSettled (history ++ [event]) pool.state.db := by
  have ran : (Pool.execute system (List.replicate 3 (none, brokenNetwork) ++
      (some (), brokenNetwork) :: List.replicate 20 (none, brokenNetwork)) demoPause).map sighting =
      some ⟨true, true, false, some (.loadFlag .running), [demoJob], some .starting⟩ := by
    decide +kernel
  obtain ⟨⟨history, pool⟩, executed, found⟩ := Option.map_eq_some_iff.mp ran
  simp only [sighting, Sighting.mk.injEq] at found
  obtain ⟨pauses, unresumed, lowered, ready, finished, status⟩ := found
  have admitted : ∀ entry ∈ List.replicate 3 ((none : Option Unit), brokenNetwork) ++
      (some (), brokenNetwork) :: List.replicate 20 (none, brokenNetwork),
      ∀ op state, system.Admits op (entry.2 op state) state := by
    intro entry member op state
    have policy : entry.2 = brokenNetwork := by
      rcases List.mem_append.mp member with first | later
      · rw [List.eq_of_mem_replicate first]
      · rcases List.mem_cons.mp later with rfl | last
        · rfl
        · rw [List.eq_of_mem_replicate last]
    rw [policy]
    exact broken_network_admitted op state
  have trace := Pool.Trace.of_execute admitted executed
  obtain ⟨after, taken, same⟩ := look_taken ready lowered
  have paused : Paused history :=
    paused_of_any (fun _ isIt => of_decide_eq_true isIt) pauses unresumed
  have member : demoJob ∈ (deskOf (history ++ [⟨some (), .loadFlag .running, false⟩])).finished := by
    rw [desk_of_append, desk_after_look rfl, finished]
    exact List.mem_singleton_self _
  have starting : after.state.db.statusOf demoJob.deploymentId = some .starting := by
    rw [same]
    exact status
  refine ⟨history, _, after, trace.step taken trivial, paused, rfl, member, starting, ?_⟩
  intro settled
  obtain ⟨row, found, isStarting⟩ := Option.map_eq_some_iff.mp starting
  obtain ⟨stored, sameId⟩ := lookup_eq_some_mem found
  have finishedRow := settled demoJob member row stored sameId
  rw [isStarting] at finishedRow
  cases finishedRow

/-- No fault of the store, no other writer, and a look only after the worker has ended. -/
def orderlyCheck (_ : List (Event Effects (Option Unit)))
    (pool : Pool Effects (Option Unit) Unit World) : Event Effects (Option Unit) → Bool
  | ⟨some (), .storeFlag _ _, _⟩ => true
  | ⟨some (), .loadFlag _, _⟩ => (pool.threads none).returned.isSome
  | ⟨some (), _, _⟩ => false
  | ⟨none, op, answer⟩ => !storeFails op answer && decide (op ≠ .loadFlag .running)

theorem orderly_of_check {history : List (Event Effects (Option Unit))}
    {event : Event Effects (Option Unit)} (checked : orderlyCheck history pool event = true) :
    Orderly demoRuntime 3 history pool event := by
  unfold orderlyCheck at checked
  split at checked
  · constructor
    · exact fun _ _ _ reopens => reopens
    · intro absurd
      cases absurd
    · exact fun _ seen => seen.elim
  · constructor
    · exact fun _ _ _ reopens => reopens
    · intro absurd
      cases absurd
    · rintro - - ⟨fuel, job, result, op, next, -, same⟩
      rw [same] at checked
      cases checked
  · cases checked
  · rw [Bool.and_eq_true, Bool.not_eq_true', decide_eq_true_eq] at checked
    constructor
    · exact fun caller => absurd rfl caller
    · exact fun _ _ => checked.1
    · exact fun _ seen => absurd (observes_idle_op seen) checked.2

/-- The worker ends the job before the pauser looks. -/
theorem finished_job_settled :
    ∃ history event pool, Pool.Trace Possible (Orderly demoRuntime 3) demoPause
        (history ++ [event]) pool ∧ Paused history ∧ ObservesIdle event ∧
      demoJob ∈ (deskOf (history ++ [event])).finished ∧
      IdleSettled (history ++ [event]) pool.state.db := by
  have ran : ((Pool.executeChecked system orderlyCheck (turns [(none, 3), (some (), 1), (none, 39)])
      [] demoPause).map fun reached => (sighting reached, (reached.2.threads none).returned)) =
      some (⟨true, true, false, some (.loadFlag .running), [demoJob], some .running⟩, some ()) := by
    decide +kernel
  obtain ⟨⟨history, pool⟩, executed, found⟩ := Option.map_eq_some_iff.mp ran
  simp only [sighting, Prod.mk.injEq, Sighting.mk.injEq] at found
  obtain ⟨⟨pauses, unresumed, lowered, ready, finished, status⟩, ended⟩ := found
  have trace := Pool.Trace.of_checked turns_admitted (fun _ _ _ checked => orderly_of_check checked)
    Pool.Trace.start executed
  obtain ⟨after, taken, same⟩ := look_taken ready lowered
  have met : Orderly demoRuntime 3 history pool ⟨some (), .loadFlag .running, false⟩ := by
    apply orderly_of_check
    exact congrArg Option.isSome ended
  have paused : Paused history :=
    paused_of_any (fun _ isIt => of_decide_eq_true isIt) pauses unresumed
  have member : demoJob ∈ (deskOf (history ++ [⟨some (), .loadFlag .running, false⟩])).finished := by
    rw [desk_of_append, desk_after_look rfl, finished]
    exact List.mem_singleton_self _
  have keyed : KeyedDeployments { demoWorld with queue := [demoJob] }.db :=
    List.nodup_singleton _
  have whole := trace.step taken met
  exact ⟨history, _, after, whole, paused, rfl, member,
    idle_settled 1 (fun _ => demo_pauser_leaves) keyed whole paused rfl⟩

end Containr.Worker
