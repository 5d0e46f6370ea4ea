import Containr.Api.Deployments
import Containr.Steps
import Containr.Worker.Footprint

/-!
# What `queue_deployment` saves

It saves the record of the request and clones of those it marks. A property that holds of the
record and of every listed deployment, and that marking leaves, holds of all it saves.
-/

namespace Containr.Api.Queueing

open Containr.Effect Containr.Effect.Program Containr.Api

def Marks : Op → Prop
  | .query (.serviceDeployments _) | .utcNow | .write (.appendDeploymentLog _ _)
  | .write (.saveServiceDeployment _) => True
  | _ => False

/-- What queueing calls besides marking. -/
def Queues : Op → Prop
  | .external _ | .newUuid | .sendJob _ | .write (.deleteDeployment _) => True
  | op => Marks op

def Kept (keep : Deployment → Prop) (rows : List Deployment) : Prop := ∀ row ∈ rows, keep row

/-- The listed deployments of the app have the property, and such deployments may be saved. -/
structure Marking (expects : (op : Op) → op.Answer → Prop) (allowed : Op → Prop)
    (keep : Deployment → Prop) (appId : Uuid) : Prop where
  lists : ∀ rows, expects (.query (.deploymentsByApp appId)) (.ok rows) → Kept keep rows
  list : allowed (.query (.deploymentsByApp appId))
  saves : ∀ deployment, keep deployment → allowed (.write (.saveDeployment deployment))
  others : ∀ op, Marks op → allowed op
  joined : ∀ deployment rows, keep deployment → keep { deployment with serviceDeployments := rows }
  stopped : ∀ deployment now rows, keep deployment → keep (stoppedClone deployment now rows)

section Marking

variable {expects : (op : Op) → op.Answer → Prop} {allowed : Op → Prop}
  {keep : Deployment → Prop} {appId : Uuid}

theorem internal_under {Value : Type} {program : Fallible Value} {post : Value → Prop}
    (under : program.run.Under expects allowed (OnOk post)) :
    (orInternal program).run.Under expects allowed (OnOk post) := by
  unfold orInternal
  apply under.bind
  intro result held
  apply under_pure.mpr
  cases result with
  | ok value => exact held
  | error message => trivial

theorem marks_under {Error Value : Type} (marking : Marking expects allowed keep appId)
    {program : Sys (Except Error Value)} (calls : program.Calls Marks) :
    program.Under expects allowed (OnOk fun _ => True) :=
  (calls.mono marking.others).under_ok

theorem with_rows_keep (marking : Marking expects allowed keep appId) (rows : List Deployment)
    (held : Kept keep rows) :
    (Store.withServiceDeployments rows).run.Under expects allowed (OnOk (Kept keep)) := by
  induction rows with
  | nil =>
      apply under_return
      intro deployment absurd
      cases absurd
  | cons row rows ih =>
      apply under_chain (marks_under marking (op_calls trivial))
      intro children _
      apply under_chain (ih fun other member => held other (List.mem_cons_of_mem _ member))
      intro others kept
      apply under_return
      intro deployment member
      rcases List.mem_cons.mp member with same | later
      · rw [same]
        exact marking.joined row children (held row List.mem_cons_self)
      · exact kept deployment later

theorem list_deployments_keep (marking : Marking expects allowed keep appId) :
    (Store.listDeploymentsByApp appId).run.Under expects allowed (OnOk (Kept keep)) := by
  have read : (Store.query (.deploymentsByApp appId)).run.Under expects allowed
      (OnOk (Kept keep)) := by
    apply under_op marking.list
    intro answer expected
    cases answer with
    | error message => trivial
    | ok rows => exact marking.lists rows expected
  apply under_chain read
  intro rows held
  exact with_rows_keep marking rows held

theorem stop_rows_marks (rows : List ServiceDeployment) : (stopRows rows).Calls Marks := by
  induction rows with
  | nil => exact calls_pure _
  | cons row rows ih =>
      apply Calls.bind
      · unfold stopRow
        split
        · exact Calls.bind (op_calls trivial) fun _ => calls_pure _
        · exact calls_pure _
      intro stopped
      exact ih.bind fun _ => calls_pure _

theorem save_deployment_keep (marking : Marking expects allowed keep appId)
    {deployment : Deployment} (held : keep deployment) :
    (orInternal (Store.saveDeployment deployment)).run.Under expects allowed
      (OnOk fun _ => True) := by
  apply internal_under
  have calls : (Store.saveDeployment deployment).run.Calls allowed :=
    op_calls (marking.saves deployment held)
  exact calls.under_ok

theorem supersede_keeps (marking : Marking expects allowed keep appId) (replacementId : Uuid)
    {deployment : Deployment} (held : keep deployment) :
    (supersede replacementId deployment).run.Under expects allowed (OnOk fun _ => True) := by
  have clock : utcNow.Calls allowed := op_calls (marking.others _ trivial)
  apply under_lift_chain clock.under
  intro now _
  apply under_lift_chain ((stop_rows_marks _).mono marking.others).under
  intro rows _
  apply under_chain (marks_under marking (or_internal_calls (op_calls trivial)))
  intro _ _
  apply under_chain (save_deployment_keep marking (marking.stopped deployment now rows held))
  intro _ _
  apply marks_under marking
  apply calls_for_each
  intro row _
  exact or_internal_calls (op_calls trivial)

theorem supersede_stale_keeps (marking : Marking expects allowed keep appId)
    (replacementId : Uuid) :
    (supersedeStaleDeployments appId replacementId).run.Under expects allowed
      (OnOk fun _ => True) := by
  apply under_chain (internal_under (list_deployments_keep marking))
  intro deployments held
  have each : (forEach (fun deployment => (supersede replacementId deployment).run)
      (deployments.filter (isStale replacementId))).Under expects allowed fun _ => True := by
    apply under_for_each
    intro deployment member
    have listed := (List.mem_filter.mp member).1
    exact (supersede_keeps marking replacementId (held deployment listed)).mono fun _ _ => trivial
  apply each.mono
  intro result _
  cases result with
  | ok _ => trivial
  | error error => trivial

theorem cleanup_stale_keeps {request : DeploymentRequest}
    (marking : Marking expects allowed keep request.app.id) (id : Uuid) :
    (cleanupStale request id).Under expects allowed fun _ => True := by
  unfold cleanupStale
  split
  · unfold ignore
    apply (supersede_stale_keeps marking id).bind
    intro _ _
    exact under_pure.mpr trivial
  · exact under_pure.mpr trivial

theorem is_local_source_path_calls (asks : ∀ action, allowed (.external action)) (source : String) :
    (isLocalSourcePath source).Calls allowed := by
  unfold isLocalSourcePath
  have looks : (external (.pathExists source)).Calls allowed := op_calls (asks _)
  exact calls_ite (calls_pure _) (calls_ite (calls_pure _) looks)

theorem resolve_source_calls (asks : ∀ action, allowed (.external action)) (ownerId : Uuid)
    (sourceUrl : String) :
    (resolveSourceDeploymentSource ownerId sourceUrl).run.Calls allowed := by
  apply Calls.run_lift_bind (is_local_source_path_calls asks sourceUrl)
  intro isLocal
  split
  · exact calls_run_pure _
  · exact Calls.run_return (op_calls (asks _))

theorem request_source_calls (asks : ∀ action, allowed (.external action))
    (request : DeploymentRequest) : (requestSource request).run.Calls allowed := by
  unfold requestSource
  split
  · exact calls_run_pure _
  · unfold resolveAppDeploymentSource
    split
    · exact calls_run_pure _
    · split
      · exact calls_run_throw _
      · exact resolve_source_calls asks _ _

theorem enqueue_job_queues (request : DeploymentRequest) (id : Uuid) (source : DeploymentSource) :
    (enqueueJob request id source).run.Calls Queues := by
  apply Calls.run_lift_bind (op_calls trivial)
  intro sent
  split
  · exact calls_run_pure _
  · apply Calls.run_lift_bind (ignore_calls (op_calls trivial))
    intro _
    exact calls_run_throw _

theorem queue_deployment_keeps {request : DeploymentRequest}
    (marking : Marking expects allowed keep request.app.id) (queues : ∀ op, Queues op → allowed op)
    (held : ∀ id now source, keep (request.deployment id now source)) :
    (queueDeployment request).run.Under expects allowed (OnOk fun _ => True) := by
  have asks : ∀ action, allowed (.external action) := fun _ => queues _ trivial
  apply under_chain (request_source_calls asks request).under_ok
  intro source _
  have draws : newUuid.Calls allowed := op_calls (queues _ trivial)
  apply under_lift_chain draws.under
  intro id _
  have clock : utcNow.Calls allowed := op_calls (marking.others _ trivial)
  apply under_lift_chain clock.under
  intro now _
  apply under_chain (save_deployment_keep marking (held id now source))
  intro _ _
  apply under_chain ((enqueue_job_queues request id source).mono queues).under_ok
  intro _ _
  apply under_lift_chain (cleanup_stale_keeps marking id)
  intro _ _
  exact under_return trivial

end Marking

end Containr.Api.Queueing
