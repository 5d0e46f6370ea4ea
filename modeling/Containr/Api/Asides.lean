import Containr.Api.Writers

/-!
# What a request calls beside its app

A request fetches its app and saves it. What it does in between, and what it does after the
save, leaves the rows of apps alone and fetches no app again.
-/

namespace Containr.Api.Services

open Containr.Effect Containr.Effect.Program Containr.Worker Containr.Api.Queueing

/-- No app is fetched or written, and no container is created. -/
def Op.Aside : Op → Prop
  | .query (.app _) | .write (.saveApp _) | .write (.deleteApp _) | .docker (.createContainer _ _) =>
      False
  | _ => True

instance : Op.Allows Op.Aside where
  looking op looking := by
    cases op with
    | query wanted => cases wanted <;> exact looking
    | write change => exact looking.elim
    | docker request => exact looking.elim
    | _ => trivial

def KeepsApps : Op → Prop
  | .write (.saveApp _) | .write (.deleteApp _) => False
  | _ => True

theorem keeps_apps_of_reading (op : Op) (reading : Op.Reading op) : KeepsApps op := by
  cases op with
  | write change => exact reading.elim
  | _ => trivial

theorem keeps_apps_of_aside (op : Op) (aside : Op.Aside op) : KeepsApps op := by
  cases op with
  | write change => cases change <;> exact aside
  | _ => trivial

variable (server : Server) (app : App) (service : ContainerService)

theorem aside_of_stops (op : Op) (stops : Op.Stops op) : Op.Aside op := by
  cases op with
  | docker request =>
      cases request with
      | createContainer name body => exact stops.elim
      | _ => trivial
  | _ => trivial

theorem refresh_aside (appId : Uuid) : (refreshProxyRoutes server appId).Calls Op.Aside :=
  refresh_proxy_routes_reading server appId

theorem certificates_aside : (requestCertificates server app).Calls Op.Aside :=
  request_certificates_reading server app

theorem deployments_aside (appId : Uuid) :
    (Store.listDeploymentsByApp appId).run.Calls Op.Aside := by
  apply Calls.run_bind (op_calls trivial)
  intro rows
  exact with_service_deployments_calls (fun _ => trivial) rows

theorem persist_aside (deployment : Deployment) :
    (persistDeployment deployment).run.Calls Op.Aside := by
  apply Calls.run_bind (or_internal_calls (op_calls trivial))
  intro _
  apply calls_for_each
  intro row _
  exact or_internal_calls (op_calls trivial)

theorem stop_app_service_aside : (stopAppService server app service).run.Calls Op.Aside := by
  have resolved : (resolveAppServiceDeployment app service).run.Calls Op.Aside := by
    exact Calls.run_return (or_internal_calls (deployments_aside app.id))
  apply resolved.run_bind
  intro found
  cases found with
  | none => exact calls_run_throw _
  | some deployment =>
      apply Calls.run_bind (or_internal_calls (op_calls trivial))
      intro _
      apply ((stop_cron_containers_stops app service).mono aside_of_stops).run_bind
      intro cronStopped
      apply Calls.run_lift_bind ((stop_service_rows_stops service.id true _).mono aside_of_stops)
      intro rows
      split
      · apply (persist_aside _).run_bind
        intro _
        split
        · exact Calls.run_lift (refresh_aside server app.id)
        · exact calls_run_pure _
      · exact calls_run_pure _

theorem close_deployment_aside (serviceId : Uuid) (deployment : Deployment) :
    (closeDeployment serviceId deployment).run.Calls Op.Aside := by
  unfold closeDeployment
  split
  · apply Calls.run_lift_bind ((stop_service_rows_stops serviceId false _).mono aside_of_stops)
    intro rows
    exact persist_aside _
  · exact calls_run_pure _

theorem finish_deletion_aside : (finishDeletion server app service).run.Calls Op.Aside := by
  apply Calls.run_bind (or_internal_calls (deployments_aside app.id))
  intro deployments
  apply Calls.run_bind
  · apply calls_for_each
    intro deployment _
    exact close_deployment_aside service.id deployment
  intro _
  apply Calls.run_lift_bind (op_calls trivial)
  intro removed
  have rest : ∀ _ : Unit, (do
      if service.isPublicHttp then
        refreshProxyRoutes server app.id
      requestCertificates server app : Handler Unit).run.Calls Op.Aside := by
    intro _
    split
    · apply Calls.run_lift_bind (refresh_aside server app.id)
      intro _
      exact Calls.run_lift (certificates_aside server app)
    · exact Calls.run_lift (certificates_aside server app)
  cases removed with
  | ok _ => exact rest ()
  | error error =>
      cases error with
      | notFound => exact rest ()
      | other message => exact Calls.run_bind (calls_run_throw _) rest

theorem queue_deployment_aside (request : DeploymentRequest) :
    (queueDeployment request).run.Under (fun _ _ => True) Op.Aside (OnOk fun _ => True) := by
  have marking : Marking (fun _ _ => True) Op.Aside (fun _ => True) request.app.id :=
    { lists := fun _ _ _ _ => trivial
      list := trivial
      saves := fun _ _ => trivial
      others := fun op marks => by
        cases op with
        | query wanted =>
            cases wanted with
            | app id => exact marks.elim
            | _ => trivial
        | write change =>
            cases change with
            | saveApp app => exact marks.elim
            | deleteApp id => exact marks.elim
            | _ => trivial
        | docker request => exact marks.elim
        | _ => trivial
      joined := fun _ _ _ => trivial
      stopped := fun _ _ _ _ => trivial }
  apply queue_deployment_keeps marking
  · intro op queues
    cases op with
    | query wanted =>
        cases wanted with
        | app id => exact queues.elim
        | _ => trivial
    | write change =>
        cases change with
        | saveApp app => exact queues.elim
        | deleteApp id => exact queues.elim
        | _ => trivial
    | docker request => exact queues.elim
    | _ => trivial
  · intro id now source
    trivial

end Containr.Api.Services
