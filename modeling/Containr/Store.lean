import Containr.System

/-!
# The functions of `Database` as programs

Most are one statement. `get_deployment`, `list_deployments_by_app`, `get_app`
and `list_apps` read child rows with statements of their own, so a write of
another task can fall between them.
-/

namespace Containr.Store

open Containr.Effect

def query (wanted : Query) : Fallible wanted.Row :=
  ExceptT.mk (Op.query wanted).call

def write (change : Write) : Fallible Unit :=
  ExceptT.mk (Op.write change).call

theorem query_bind {Value : Type} (wanted : Query)
    (continuation : Except String wanted.Row → Sys Value) :
    (query wanted).run.bind continuation = .call (Op.query wanted) continuation := rfl

theorem write_bind {Value : Type} (change : Write)
    (continuation : Except String Unit → Sys Value) :
    (write change).run.bind continuation = .call (Op.write change) continuation := rfl

def getDeployment (id : Uuid) : Fallible (Option Deployment) := do
  match ← query (.deployment id) with
  | none => pure none
  | some row =>
      let rows ← query (.serviceDeployments id)
      pure (some { row with serviceDeployments := rows })

def withServiceDeployments : List Deployment → Fallible (List Deployment)
  | [] => pure []
  | row :: rest => do
      let rows ← query (.serviceDeployments row.id)
      let others ← withServiceDeployments rest
      pure ({ row with serviceDeployments := rows } :: others)

def listDeploymentsByApp (appId : Uuid) : Fallible (List Deployment) := do
  let rows ← query (.deploymentsByApp appId)
  withServiceDeployments rows

def listServicesByApp (appId : Uuid) : Fallible (List ContainerService) :=
  query (.servicesByApp appId)

def getService (id : Uuid) : Fallible (Option ContainerService) := query (.service id)

def getApp (id : Uuid) : Fallible (Option App) := do
  match ← query (.app id) with
  | none => pure none
  | some row =>
      let services ← listServicesByApp row.id
      pure (some { row with services := services })

def withServices : List App → Fallible (List App)
  | [] => pure []
  | row :: rest => do
      let services ← listServicesByApp row.id
      let others ← withServices rest
      pure ({ row with services := services } :: others)

def listApps : Fallible (List App) := do
  let rows ← query .apps
  withServices rows

def listRegistriesByOwner (ownerId : Uuid) : Fallible (List ContainerRegistry) :=
  query (.registriesByOwner ownerId)

def saveApp (app : App) : Fallible Unit := write (.saveApp app)

def deleteApp (id : Uuid) : Fallible Unit := write (.deleteApp id)

def saveDeployment (deployment : Deployment) : Fallible Unit := write (.saveDeployment deployment)

def deleteDeployment (id : Uuid) : Fallible Unit := write (.deleteDeployment id)

def saveServiceDeployment (row : ServiceDeployment) : Fallible Unit :=
  write (.saveServiceDeployment row)

def appendDeploymentLog (id : Uuid) (line : String) : Fallible Unit :=
  write (.appendDeploymentLog id line)

end Containr.Store

namespace Containr

open Containr.Effect

def newUuid : Sys Uuid := Op.newUuid.call

def utcNow : Sys Time := Op.utcNow.call

def sendJob (job : DeploymentJob) : Fallible Unit :=
  ExceptT.mk (Op.sendJob job).call

def receiveJob : Sys (Option DeploymentJob) := Op.receiveJob.call

def loadFlag (flag : Flag) : Sys Bool := (Op.loadFlag flag).call

def storeFlag (flag : Flag) (value : Bool) : Sys Unit := (Op.storeFlag flag value).call

def iterationOrder (keys : List String) : Sys { order : List String // order.Perm keys } :=
  (Op.iterationOrder keys).call

def hashOrder (count : Nat) : Sys { order : List Nat // order.Perm (List.range count) } :=
  (Op.hashOrder count).call

def external (action : External) : Sys action.Reply := (Op.external action).call

def docker (request : DockerCall) : Fallible request.Reply :=
  ExceptT.mk (Op.docker request).call

def internalError : ApiError := ⟨500, "internal server error"⟩

/-- `.map_err(internal_error)?`: the cause is logged, not answered. -/
def orInternal {Value : Type} (program : Fallible Value) : Handler Value :=
  ExceptT.mk (program.run.bind fun result =>
    .pure (match result with
      | .ok value => .ok value
      | .error _ => .error internalError))

/-- `if !condition { return Err(error) }`. -/
def ensure {Error : Type} (condition : Bool) (error : Error) :
    ExceptT Error (Program Effects) Unit :=
  if condition then pure () else throw error

/-- `let _ = ...`: the result of a fallible call is dropped. -/
def ignore {Error Value : Type} (program : ExceptT Error (Program Effects) Value) : Sys Unit :=
  program.run.bind fun _ => .pure ()

section Rules

variable {State : Type} {can : Behaviour Effects State} {ok : State → Op → Prop} {state : State}

theorem op_always {op : Op} {post : op.Answer → State → Prop} :
    @Program.Always Effects op.Answer State can ok op.call post state ↔
      ok state op ∧ ∀ answer after, can op state answer after → post answer after := by
  unfold Op.call
  exact @Program.always_perform Effects State can ok op post state

theorem always_op {op : Op} {post : op.Answer → State → Prop} (allowed : ok state op)
    (after : ∀ answer next, can op state answer next → post answer next) :
    @Program.Always Effects op.Answer State can ok op.call post state :=
  op_always.mpr ⟨allowed, after⟩

theorem ignore_always {Error Value : Type} {program : ExceptT Error (Program Effects) Value}
    {post : Unit → State → Prop} :
    (ignore program).Always can ok post state ↔
      program.run.Always can ok (fun _ after => post () after) state := by
  unfold ignore
  exact @Program.always_dropped Effects (Except Error Value) State can ok program.run post state

theorem or_internal_always {Value : Type} {program : Fallible Value}
    {post : Except ApiError Value → State → Prop} :
    (orInternal program).run.Always can ok post state ↔
      program.run.Always can ok (fun result after =>
        match result with
        | .ok value => post (.ok value) after
        | .error _ => post (.error internalError) after) state := by
  unfold orInternal
  rw [Program.always_run_map]
  apply Program.always_congr
  intro result after
  cases result with
  | ok value => exact Iff.rfl
  | error message => exact Iff.rfl

end Rules

end Containr
