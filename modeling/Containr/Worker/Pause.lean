import Containr.Steps
import Containr.Worker.Footprint

/-!
# Pausing the worker

`run` raises `DEPLOYMENT_RUNNING` before it reads `DEPLOYMENTS_PAUSED`, and lowers
it again when it finds a pause. `Stage` names the points between these calls.
Other tasks are arbitrary, except that none of them stores the running flag.
-/

namespace Containr.Worker

open Containr.Effect Containr.Effect.Program

/-- `process_job` and the cleanup after it. -/
def jobBody (runtime : Runtime) (job : DeploymentJob) : Sys (Except String Unit) :=
  (processJob runtime job).run.bind fun result =>
    (cleanupUploadedSource runtime job).bind fun _ => .pure result

def recordFailure (job : DeploymentJob) : Except String Unit → Sys Unit
  | .ok () => .pure ()
  | .error message => markFailed job.deploymentId message

section Loop

variable (runtime : Runtime) (patience fuel : Nat) (job : DeploymentJob)

def afterJob (result : Except String Unit) : Sys Unit :=
  (storeFlag .running false).bind fun _ =>
    (recordFailure job result).bind fun _ => run runtime patience fuel

/-- What comes after `begin_deployment`. -/
def onBegun (begun : Bool) : Sys Unit :=
  if begun then (jobBody runtime job).bind (afterJob runtime patience fuel job) else .pure ()

theorem handle_job_eq : handleJob runtime job =
    (jobBody runtime job).bind fun result =>
      (storeFlag .running false).bind fun _ => recordFailure job result := by
  unfold handleJob jobBody
  simp only [bind_eq, bind_assoc, pure_bind]
  apply congrArg (Program.bind _)
  funext result
  apply congrArg (Program.bind _)
  funext _
  apply congrArg (Program.bind _)
  funext _
  cases result with
  | ok _ => rfl
  | error message => rfl

/-- What comes after `rx.recv()`. -/
def onReceived : Option DeploymentJob → Sys Unit
  | none => .pure ()
  | some job => (beginDeployment patience).bind (onBegun runtime patience fuel job)

theorem run_succ : run runtime patience (fuel + 1) =
    receiveJob.bind (onReceived runtime patience fuel) := by
  unfold run
  simp only [bind_eq]
  apply congrArg (Program.bind receiveJob)
  funext received
  cases received with
  | none => rfl
  | some job =>
      apply congrArg (Program.bind (beginDeployment patience))
      funext begun
      unfold onBegun
      rw [handle_job_eq]
      cases begun with
      | false => rfl
      | true =>
          simp only [if_true, bind_assoc]
          rfl

/-- What comes after the second look at the pause. -/
def onChecked (waits : Nat) (paused : Bool) : Sys Bool :=
  if paused then (storeFlag .running false).bind fun _ => beginDeployment waits else .pure true

theorem begin_succ (waits : Nat) : beginDeployment (waits + 1) =
    (storeFlag .running true).bind fun _ => (loadFlag .paused).bind (onChecked waits) := by
  apply congrArg (Program.bind (storeFlag .running true))
  funext _
  apply congrArg (Program.bind (loadFlag .paused))
  funext paused
  cases paused with
  | false => rfl
  | true => rfl

end Loop

/-- Named after what the worker does next. -/
inductive Stage where
  | waiting
  | raising (job : DeploymentJob)
  | checking (job : DeploymentJob)
  | clearing (job : DeploymentJob)
  | working (job : DeploymentJob)
  | marking (job : DeploymentJob)

def Stage.Raised : Stage → Prop
  | .checking _ | .clearing _ | .working _ => True
  | .waiting | .raising _ | .marking _ => False

/-- The calls a job makes, and what is known of the rest of its body and of the rest of
its failure record. -/
structure Knowledge where
  calls : DeploymentJob → Op → Prop
  inJob : ∀ job op, calls job op → InJob op
  body : DeploymentJob → Sys (Except String Unit) → Prop
  record : DeploymentJob → Sys Unit → Prop

inductive At (runtime : Runtime) (patience : Nat) (known : Knowledge) : Stage → Sys Unit → Prop where
  | waiting (fuel : Nat) : At runtime patience known .waiting (run runtime patience fuel)
  | raising (fuel waits : Nat) (job : DeploymentJob) : At runtime patience known (.raising job)
      ((beginDeployment (waits + 1)).bind (onBegun runtime patience fuel job))
  | checking (fuel waits : Nat) (job : DeploymentJob) : At runtime patience known (.checking job)
      (((loadFlag .paused).bind (onChecked waits)).bind (onBegun runtime patience fuel job))
  | clearing (fuel waits : Nat) (job : DeploymentJob) : At runtime patience known (.clearing job)
      (((storeFlag .running false).bind fun _ => beginDeployment waits).bind
        (onBegun runtime patience fuel job))
  | working (fuel : Nat) (job : DeploymentJob) {rest : Sys (Except String Unit)}
      (left : known.body job rest) : At runtime patience known (.working job)
      (rest.bind (afterJob runtime patience fuel job))
  | marking (fuel : Nat) (job : DeploymentJob) {op : Op} {next : op.Answer → Sys Unit}
      (left : known.record job (@Program.call Effects Unit op next)) :
      At runtime patience known (.marking job)
        ((@Program.call Effects Unit op next).bind fun _ => run runtime patience fuel)

structure Knowledge.Follows (runtime : Runtime) (known after : Knowledge) (op : Op)
    (answer : op.Answer) : Prop where
  begin : ∀ job, after.body job (jobBody runtime job)
  body : ∀ job next, known.body job (@Program.call Effects (Except String Unit) op next) →
    known.calls job op ∧ after.body job (next answer)
  done : ∀ job result, op = .storeFlag .running false → known.body job (.pure result) →
    after.record job (recordFailure job result)
  record : ∀ job next, known.record job (@Program.call Effects Unit op next) →
    known.calls job op ∧ after.record job (next answer)

inductive Moves (calls : DeploymentJob → Op → Prop) :
    Stage → (op : Op) → op.Answer → Stage → Prop where
  | closed : Moves calls .waiting .receiveJob none .waiting
  | received (job : DeploymentJob) : Moves calls .waiting .receiveJob (some job) (.raising job)
  /-- Without patience the worker gives up on the job. -/
  | dropped (job : DeploymentJob) : Moves calls .waiting .receiveJob (some job) .waiting
  | raised (job : DeploymentJob) :
      Moves calls (.raising job) (.storeFlag .running true) () (.checking job)
  | held (job : DeploymentJob) :
      Moves calls (.checking job) (.loadFlag .paused) true (.clearing job)
  | begun (job : DeploymentJob) :
      Moves calls (.checking job) (.loadFlag .paused) false (.working job)
  | again (job : DeploymentJob) :
      Moves calls (.clearing job) (.storeFlag .running false) () (.raising job)
  | tired (job : DeploymentJob) : Moves calls (.clearing job) (.storeFlag .running false) () .waiting
  | works (job : DeploymentJob) {op : Op} (answer : op.Answer) (called : calls job op) :
      Moves calls (.working job) op answer (.working job)
  | done (job : DeploymentJob) : Moves calls (.working job) (.storeFlag .running false) () .waiting
  | failed (job : DeploymentJob) :
      Moves calls (.working job) (.storeFlag .running false) () (.marking job)
  | marks (job : DeploymentJob) {op : Op} (answer : op.Answer) (called : calls job op) :
      Moves calls (.marking job) op answer (.marking job)
  | marked (job : DeploymentJob) {op : Op} (answer : op.Answer) (called : calls job op) :
      Moves calls (.marking job) op answer .waiting

section Stages

variable {runtime : Runtime} {patience : Nat}

theorem job_body_in_job (job : DeploymentJob) : (jobBody runtime job).Calls InJob := by
  apply Calls.bind (process_job_in_job runtime job)
  intro result
  apply Calls.bind ((cleanup_quiet runtime job).mono in_job_of_within)
  intro _
  exact calls_pure _

theorem record_failure_in_job (job : DeploymentJob) (result : Except String Unit) :
    (recordFailure job result).Calls InJob := by
  cases result with
  | ok _ => exact calls_pure _
  | error message => exact mark_failed_in_job _ _

theorem At.mono {known more : Knowledge} {stage : Stage} {program : Sys Unit}
    (here : At runtime patience known stage program)
    (body : ∀ job rest, stage = .working job → known.body job rest → more.body job rest)
    (record : ∀ fuel job rest, stage = .marking job →
      program = rest.bind (fun _ => run runtime patience fuel) →
        known.record job rest → more.record job rest) :
    At runtime patience more stage program := by
  cases here with
  | waiting fuel => exact At.waiting fuel
  | raising fuel waits job => exact At.raising fuel waits job
  | checking fuel waits job => exact At.checking fuel waits job
  | clearing fuel waits job => exact At.clearing fuel waits job
  | working fuel job left => exact At.working fuel job (body job _ rfl left)
  | marking fuel job left => exact At.marking fuel job (record fuel job _ rfl rfl left)

variable {known after : Knowledge}

/-- The worker waits for the next job or starts over with this one. -/
theorem at_begin (fuel waits : Nat) (job : DeploymentJob) :
    At runtime patience known .waiting
        ((beginDeployment waits).bind (onBegun runtime patience fuel job)) ∨
      At runtime patience known (.raising job)
        ((beginDeployment waits).bind (onBegun runtime patience fuel job)) := by
  cases waits with
  | zero => exact Or.inl (At.waiting 0)
  | succ waits => exact Or.inr (At.raising fuel waits job)

theorem at_record (fuel : Nat) (job : DeploymentJob) {rest : Sys Unit}
    (left : known.record job rest) :
    (At runtime patience known .waiting (rest.bind fun _ => run runtime patience fuel) ∧
        known.record job (.pure ())) ∨
      At runtime patience known (.marking job) (rest.bind fun _ => run runtime patience fuel) := by
  cases rest with
  | pure _ => exact Or.inl ⟨At.waiting fuel, left⟩
  | call op next => exact Or.inr (At.marking fuel job left)

def Stage.begun : Stage → Option DeploymentJob
  | .working job | .marking job => some job
  | .waiting | .raising _ | .checking _ | .clearing _ => none

/-- One call of the worker is one move. A job is left with its failure recorded. -/
theorem at_moves {stage : Stage} {program : Sys Unit} (here : At runtime patience known stage program)
    {op : Op} {next : op.Answer → Sys Unit} (ready : program = @Program.call Effects Unit op next)
    {answer : op.Answer} (follows : known.Follows runtime after op answer) :
    ∃ moved, At runtime patience after moved (next answer) ∧ Moves known.calls stage op answer moved ∧
      ∀ job, stage.begun = some job → moved = .waiting → after.record job (.pure ()) := by
  cases here with
  | waiting fuel =>
      cases fuel with
      | zero => cases ready
      | succ fuel =>
          rw [run_succ] at ready
          cases ready
          cases answer with
          | none => exact ⟨_, At.waiting 0, Moves.closed, fun _ absurd => by cases absurd⟩
          | some job =>
              rcases at_begin fuel patience job with waiting | raising
              · exact ⟨_, waiting, Moves.dropped job, fun _ absurd => by cases absurd⟩
              · exact ⟨_, raising, Moves.received job, fun _ absurd => by cases absurd⟩
  | raising fuel waits job =>
      rw [begin_succ] at ready
      cases ready
      exact ⟨_, At.checking fuel waits job, Moves.raised job, fun _ absurd => by cases absurd⟩
  | checking fuel waits job =>
      cases ready
      cases answer with
      | true =>
          exact ⟨_, At.clearing fuel waits job, Moves.held job, fun _ absurd => by cases absurd⟩
      | false =>
          exact ⟨_, At.working fuel job (follows.begin job), Moves.begun job,
            fun _ absurd => by cases absurd⟩
  | clearing fuel waits job =>
      cases ready
      rcases at_begin fuel waits job with waiting | raising
      · exact ⟨_, waiting, Moves.tired job, fun _ absurd => by cases absurd⟩
      · exact ⟨_, raising, Moves.again job, fun _ absurd => by cases absurd⟩
  | @working fuel job rest left =>
      cases rest with
      | pure result =>
          cases ready
          rcases at_record fuel job (follows.done job result rfl left) with ⟨waiting, ended⟩ | marking
          · refine ⟨_, waiting, Moves.done job, fun other same _ => ?_⟩
            cases same
            exact ended
          · exact ⟨_, marking, Moves.failed job, fun _ _ absurd => by cases absurd⟩
      | call op continued =>
          cases ready
          obtain ⟨called, later⟩ := follows.body job _ left
          exact ⟨_, At.working fuel job later, Moves.works job answer called,
            fun _ _ absurd => by cases absurd⟩
  | marking fuel job left =>
      cases ready
      obtain ⟨called, later⟩ := follows.record job _ left
      rcases at_record fuel job later with ⟨waiting, ended⟩ | marking
      · refine ⟨_, waiting, Moves.marked job answer called, fun other same _ => ?_⟩
        cases same
        exact ended
      · exact ⟨_, marking, Moves.marks job answer called, fun _ _ absurd => by cases absurd⟩

def residuals (runtime : Runtime) : Knowledge where
  calls _ op := InJob op
  inJob _ _ called := called
  body job rest := Residual (jobBody runtime job) rest
  record job rest := ∃ result, Residual (recordFailure job result) rest

theorem residuals_follow (op : Op) (answer : op.Answer) :
    (residuals runtime).Follows runtime (residuals runtime) op answer where
  begin job := Residual.whole
  body job next left := ⟨((job_body_in_job job).residual left).head, left.next answer⟩
  done job result _ _ := ⟨result, Residual.whole⟩
  record job next left := by
    obtain ⟨result, rest⟩ := left
    exact ⟨((record_failure_in_job job result).residual rest).head, result, rest.next answer⟩

end Stages

def InJobBody (runtime : Runtime) (patience : Nat) (program : Sys Unit) : Prop :=
  ∃ (fuel : Nat) (job : DeploymentJob) (op : Op) (next : op.Answer → Sys (Except String Unit)),
    Residual (jobBody runtime job) (@Program.call Effects (Except String Unit) op next) ∧
      program = (@Program.call Effects (Except String Unit) op next).bind
        (afterJob runtime patience fuel job)

def LowersFirst : Sys Unit → Prop
  | .pure _ => False
  | .call op next => op = Op.storeFlag .running false ∨ InJob op ∧ ∀ answer, LowersFirst (next answer)

def nextCall {Value : Type} : Sys Value → Option Op
  | .pure _ => none
  | .call op _ => some op

/-- The worker is about to make a call of `markFailed`, or waits for its answer. -/
def InFailureRecord (runtime : Runtime) (patience : Nat) (program : Sys Unit) : Prop :=
  ∃ (fuel : Nat) (job : DeploymentJob) (result : Except String Unit) (op : Op)
    (next : op.Answer → Sys Unit),
    Residual (recordFailure job result) (@Program.call Effects Unit op next) ∧
      program = (@Program.call Effects Unit op next).bind fun _ => run runtime patience fuel

section Shapes

variable {runtime : Runtime} {patience : Nat}

theorem answer_exists (op : Op) : Nonempty op.Answer :=
  ⟨(op.exec (calm op World.empty) World.empty).1⟩

theorem body_lowers {rest : Sys (Except String Unit)} (inJob : rest.Calls InJob) (fuel : Nat)
    (job : DeploymentJob) : LowersFirst (rest.bind (afterJob runtime patience fuel job)) := by
  induction rest with
  | pure result => exact Or.inl rfl
  | call op next ih => exact Or.inr ⟨inJob.head, fun answer => ih answer (inJob.next answer)⟩

theorem run_does_not_lower (fuel : Nat) : ¬LowersFirst (run runtime patience fuel) := by
  cases fuel with
  | zero => exact fun lowers => lowers
  | succ fuel =>
      rw [run_succ]
      rintro (isStore | ⟨inJob, -⟩)
      · cases isStore
      · exact inJob

theorem mark_does_not_lower {rest : Sys Unit} (inJob : rest.Calls InJob) (fuel : Nat) :
    ¬LowersFirst (rest.bind fun _ => run runtime patience fuel) := by
  induction rest with
  | pure result => exact run_does_not_lower fuel
  | call op next ih =>
      rintro (isStore | ⟨-, lowers⟩)
      · have head : InJob op := inJob.head
        rw [isStore] at head
        exact head
      · obtain ⟨answer⟩ := answer_exists op
        exact ih answer (inJob.next answer) (lowers answer)

/-- Only the stage `working` lies inside a job body. -/
theorem working_of_in_job_body {stage : Stage} {program : Sys Unit}
    (here : At runtime patience (residuals runtime) stage program)
    (body : InJobBody runtime patience program) :
    ∃ job, stage = .working job := by
  obtain ⟨fuel, job, op, next, left, same⟩ := body
  have inJob : (@Program.call Effects (Except String Unit) op next).Calls InJob :=
    (job_body_in_job job).residual left
  have head : InJob op := inJob.head
  have first : nextCall program = some op := congrArg nextCall same
  cases here with
  | waiting other =>
      cases other with
      | zero => cases first
      | succ other =>
          rw [run_succ] at first
          cases first
          exact head.elim
  | raising _ _ other =>
      rw [begin_succ] at first
      cases first
      exact head.elim
  | checking _ _ other =>
      cases first
      exact head.elim
  | clearing _ _ other =>
      cases first
      exact head.elim
  | working _ other _ => exact ⟨other, rfl⟩
  | marking other failed marks =>
      obtain ⟨result, rest⟩ := marks
      have lowers := @body_lowers runtime patience _ inJob fuel job
      rw [← same] at lowers
      have inMark := (record_failure_in_job failed result).residual rest
      exact absurd lowers (mark_does_not_lower inMark other)

end Shapes

/-- `DEPLOYMENT_RUNNING` is stored by the worker alone. -/
def LeavesRunning (op : Op) : Prop := ∀ value, op ≠ .storeFlag .running value

section Runs

variable {Caller : Type}

def Resumes (event : Event Effects (Option Caller)) : Prop := event.op = .storeFlag .paused false

/-- `pause_deployments` was called, and `resume_deployments` not since. -/
def Paused (history : List (Event Effects (Option Caller))) : Prop :=
  Since (fun _ event => event.op = .storeFlag .paused true) Resumes history

/-- `deployment_running` returned `false`. -/
def ObservesIdle : Event Effects (Option Caller) → Prop
  | ⟨_, .loadFlag .running, answer⟩ => answer = false
  | _ => False

/-- Such an observation was made during a pause that still lasts. -/
def SeenIdle (history : List (Event Effects (Option Caller))) : Prop :=
  Since (fun before event => Paused before ∧ ObservesIdle event) Resumes history

def withWorker (runtime : Runtime) (patience fuel : Nat) (callers : Caller → Sys Unit)
    (world : World) : Pool Effects (Option Caller) Unit World where
  threads
    | none => run runtime patience fuel
    | some caller => callers caller
  state := world

variable {runtime : Runtime} {patience : Nat} {history : List (Event Effects (Option Caller))}
  {pool after : Pool Effects (Option Caller) Unit World} {event : Event Effects (Option Caller)}
  {next world : World}

theorem observes_idle (seen : ObservesIdle event)
    (possible : Possible event.op world event.answer next) : world.running = false := by
  obtain ⟨thread, op, answer⟩ := event
  unfold ObservesIdle at seen
  split at seen
  · rename_i same
    cases same
    exact (possible_load possible).1.symm.trans seen
  · exact seen.elim

theorem not_resumes_of_observes (seen : ObservesIdle event) : ¬Resumes event := by
  obtain ⟨thread, op, answer⟩ := event
  unfold ObservesIdle at seen
  split at seen
  · rename_i same
    cases same
    intro resumes
    cases resumes
  · exact seen.elim

theorem seen_idle_paused (seen : SeenIdle history) : Paused history := by
  obtain ⟨before, first, later, rfl, ⟨pause, observes⟩, quiet⟩ := seen
  obtain ⟨earlier, pausing, between, rfl, pauses, kept⟩ := pause
  refine ⟨earlier, pausing, between ++ first :: later, by simp, pauses, ?_⟩
  intro event member
  rcases List.mem_append.mp member with inside | inside
  · exact kept event inside
  · rcases List.mem_cons.mp inside with rfl | inside
    · exact not_resumes_of_observes observes
    · exact quiet event inside

structure PauseInvariant (runtime : Runtime) (patience : Nat)
    (history : List (Event Effects (Option Caller)))
    (pool : Pool Effects (Option Caller) Unit World) : Prop where
  callers : ∀ caller, (pool.threads (some caller)).Calls LeavesRunning
  worker : ∃ stage, At runtime patience (residuals runtime) stage (pool.threads none) ∧
    (stage.Raised → pool.state.running = true) ∧
      (SeenIdle history → ∀ job, stage ≠ .working job)
  paused : Paused history → pool.state.paused = true

theorem pause_start (runtime : Runtime) (patience fuel : Nat) {callers : Caller → Sys Unit}
    (leaves : ∀ caller, (callers caller).Calls LeavesRunning) (world : World) :
    PauseInvariant runtime patience [] (withWorker runtime patience fuel callers world) where
  callers := leaves
  worker := ⟨.waiting, At.waiting fuel, fun raised => raised.elim, fun seen => (since_nil seen).elim⟩
  paused paused := (since_nil paused).elim

theorem paused_step (inv : Paused history → world.paused = true)
    (possible : Possible event.op world event.answer next) (paused : Paused (history ++ [event])) :
    next.paused = true := by
  obtain ⟨thread, op, answer⟩ := event
  rcases since_append paused with pauses | ⟨earlier, notResumed⟩
  · cases pauses
    rw [possible_store possible]
    rfl
  · have held := inv earlier
    by_cases stores : ∃ value, op = .storeFlag .paused value
    · obtain ⟨value, rfl⟩ := stores
      cases value with
      | true =>
          rw [possible_store possible]
          rfl
      | false => exact absurd rfl notResumed
    · have same := (possible_untouched possible).paused fun value is => stores ⟨value, is⟩
      exact same.trans held

variable {op : Op}

theorem in_job_leaves_running (inJob : InJob op) : LeavesRunning op := by
  rintro value rfl
  exact inJob

variable {calls : DeploymentJob → Op → Prop} {moved stage : Stage} {answer : op.Answer}

theorem moves_raised (inJob : ∀ job op, calls job op → InJob op)
    (moves : Moves calls stage op answer moved) (possible : Possible op world answer next)
    (raised : stage.Raised → world.running = true) (needs : moved.Raised) :
    next.running = true := by
  cases moves with
  | closed => exact needs.elim
  | received job => exact needs.elim
  | dropped job => exact needs.elim
  | raised job =>
      rw [possible_store possible]
      rfl
  | held job =>
      rw [(possible_load possible).2]
      exact raised trivial
  | begun job =>
      rw [(possible_load possible).2]
      exact raised trivial
  | again job => exact needs.elim
  | tired job => exact needs.elim
  | works job answer called =>
      have leaves := in_job_leaves_running (inJob job op called)
      have same := (possible_untouched possible).running leaves
      exact same.trans (raised trivial)
  | done job => exact needs.elim
  | failed job => exact needs.elim
  | marks job answer called => exact needs.elim
  | marked job answer called => exact needs.elim

theorem moves_paused (moves : Moves calls stage op answer moved)
    (possible : Possible op world answer next) (paused : world.paused = true)
    (outside : ∀ job, stage ≠ .working job) (job : DeploymentJob) : moved ≠ .working job := by
  cases moves with
  | begun other =>
      have answered : false = world.paused := (possible_load possible).1
      rw [paused] at answered
      cases answered
  | works other answer called => exact absurd rfl (outside other)
  | _ =>
      intro same
      cases same

theorem not_observes_of_in_job {thread : Option Caller} (inJob : InJob op) :
    ¬ObservesIdle (⟨thread, op, answer⟩ : Event Effects (Option Caller)) := by
  intro seen
  unfold ObservesIdle at seen
  split at seen
  · rename_i same
    cases same
    exact inJob
  · exact seen

/-- The worker never asks whether it runs. -/
theorem moves_observe (inJob : ∀ job op, calls job op → InJob op) {thread : Option Caller}
    (moves : Moves calls stage op answer moved) :
    ¬ObservesIdle (⟨thread, op, answer⟩ : Event Effects (Option Caller)) := by
  cases moves with
  | works job answer called => exact not_observes_of_in_job (inJob job op called)
  | marks job answer called => exact not_observes_of_in_job (inJob job op called)
  | marked job answer called => exact not_observes_of_in_job (inJob job op called)
  | _ => exact fun seen => seen

section Step

variable [DecidableEq Caller]

theorem worker_step (inv : PauseInvariant runtime patience history pool)
    (taken : Pool.Step Possible pool event after) (byWorker : event.thread = none) :
    PauseInvariant runtime patience (history ++ [event]) after := by
  obtain ⟨next, ready, possible, moved⟩ := taken.own
  obtain ⟨stage, here, raised, outside⟩ := inv.worker
  rw [byWorker] at ready moved
  obtain ⟨stageAfter, there, moves, -⟩ :=
    at_moves here ready (residuals_follow event.op event.answer)
  constructor
  · intro caller
    have other : some caller ≠ event.thread := by simp [byWorker]
    rw [taken.other other]
    exact inv.callers caller
  · rw [moved]
    refine ⟨stageAfter, there, moves_raised (residuals runtime).inJob moves possible raised,
      fun seen => ?_⟩
    rcases since_append seen with ⟨-, observes⟩ | ⟨earlier, -⟩
    · exact absurd observes (moves_observe (residuals runtime).inJob moves)
    · exact moves_paused moves possible (inv.paused (seen_idle_paused earlier)) (outside earlier)
  · exact paused_step inv.paused possible

theorem caller_step (inv : PauseInvariant runtime patience history pool)
    (taken : Pool.Step Possible pool event after) (byCaller : event.thread ≠ none) :
    PauseInvariant runtime patience (history ++ [event]) after := by
  obtain ⟨next, ready, possible, moved⟩ := taken.own
  obtain ⟨caller, isCaller⟩ := Option.ne_none_iff_exists'.mp byCaller
  obtain ⟨stage, here, raised, outside⟩ := inv.worker
  have own : (@Program.call Effects Unit event.op next).Calls LeavesRunning := by
    rw [← ready, isCaller]
    exact inv.callers caller
  have running := (possible_untouched possible).running own.head
  constructor
  · intro other
    by_cases same : some other = event.thread
    · rw [same, moved]
      exact own.next event.answer
    · rw [taken.other same]
      exact inv.callers other
  · rw [taken.other (Ne.symm byCaller)]
    refine ⟨stage, here, fun needs => running.trans (raised needs), fun seen => ?_⟩
    rcases since_append seen with ⟨-, observes⟩ | ⟨earlier, -⟩
    · rintro job rfl
      have lowered := observes_idle observes possible
      rw [raised trivial] at lowered
      cases lowered
    · exact outside earlier
  · exact paused_step inv.paused possible

theorem pause_invariant {fuel : Nat} {callers : Caller → Sys Unit} {world : World}
    (leaves : ∀ caller, (callers caller).Calls LeavesRunning)
    (trace : Pool.Trace Possible (fun _ _ _ => True)
      (withWorker runtime patience fuel callers world) history pool) :
    PauseInvariant runtime patience history pool := by
  apply trace.invariant
  · exact pause_start runtime patience fuel leaves world
  · intro history pool event after _ inv taken _
    by_cases byWorker : event.thread = none
    · exact worker_step inv taken byWorker
    · exact caller_step inv taken byWorker

end Step

/-- From an idle observation during a pause to the next resume, no job body runs. -/
theorem no_job_while_paused [DecidableEq Caller] (fuel : Nat) {callers : Caller → Sys Unit}
    (leaves : ∀ caller, (callers caller).Calls LeavesRunning) {world : World}
    (trace : Pool.Trace Possible (fun _ _ _ => True)
      (withWorker runtime patience fuel callers world) history pool)
    (seen : SeenIdle history) : ¬InJobBody runtime patience (pool.threads none) := by
  intro body
  obtain ⟨stage, here, -, outside⟩ := (pause_invariant leaves trace).worker
  obtain ⟨job, working⟩ := working_of_in_job_body here body
  exact outside seen job working

end Runs

def demoPauser : Sys Unit :=
  (storeFlag .paused true).bind fun _ => (loadFlag .running).bind fun _ => .pure ()

theorem demo_pauser_leaves : demoPauser.Calls LeavesRunning := by
  apply Calls.bind (op_calls fun _ same => by cases same)
  intro _
  apply Calls.bind (op_calls fun _ same => by cases same)
  intro _
  exact calls_pure _

def demoPause : Pool Effects (Option Unit) Unit World :=
  withWorker demoRuntime 3 1 (fun _ => demoPauser) { demoWorld with queue := [demoJob] }

def demoPauseHistory : List (Event Effects (Option Unit)) :=
  [⟨some (), .storeFlag .paused true, ()⟩, ⟨some (), .loadFlag .running, false⟩,
    ⟨none, .receiveJob, some demoJob⟩, ⟨none, .storeFlag .running true, ()⟩,
    ⟨none, .loadFlag .paused, true⟩]

theorem queued_job_held :
    ∃ pool, Pool.Trace Possible (fun _ _ _ => True) demoPause demoPauseHistory pool ∧
      SeenIdle demoPauseHistory ∧ ¬InJobBody demoRuntime 3 (pool.threads none) := by
  have ran : (Pool.execute system (turns [(some (), 2), (none, 3)]) demoPause).map Prod.fst =
      some demoPauseHistory := rfl
  obtain ⟨⟨history, pool⟩, executed, events⟩ := Option.map_eq_some_iff.mp ran
  dsimp only at events
  subst events
  have trace := Pool.Trace.of_execute turns_admitted executed
  have paused : Paused (demoPauseHistory.take 1) :=
    ⟨[], _, [], rfl, rfl, fun _ member => absurd member List.not_mem_nil⟩
  have seen : SeenIdle demoPauseHistory := by
    refine ⟨demoPauseHistory.take 1, _, demoPauseHistory.drop 2, rfl, ⟨paused, rfl⟩, ?_⟩
    intro event member resumes
    have none_resumes : ∀ event ∈ demoPauseHistory.drop 2,
        event.op ≠ .storeFlag .paused false := by simp [demoPauseHistory]
    exact none_resumes event member resumes
  exact ⟨pool, trace, seen, no_job_while_paused 1 (fun _ => demo_pauser_leaves) trace seen⟩

end Containr.Worker
