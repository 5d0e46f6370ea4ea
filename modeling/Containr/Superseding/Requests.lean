import Containr.Api.Queueing
import Containr.Superseding.Finished

/-!
# Requests that supersede each other

Every `queue_deployment` call saves a record of its own and then marks the other
unfinished ones. Two calls that have both listed before either marks stop each
other's record, and no request is left. As long as a call marks only while its own
record stands, one of the new records is never marked.
-/

namespace Containr.Superseding

open Containr.Effect Containr.Effect.Program Containr.Api Containr.Worker

/-- What a call has done: the id it drew, whether it has saved or deleted its
record, and the ids it has listed. -/
structure Progress where
  own : Option Uuid
  saved : Bool
  deleted : Bool
  listed : List Uuid

/-- The id a call draws, the record it saves, the records it lists. -/
def drawnId : (op : Op) → op.Answer → Option Uuid
  | .newUuid, id => some id
  | _, _ => none

def savedId : Op → Option Uuid
  | .write (.saveDeployment deployment) => some deployment.id
  | _ => none

def listedIds : (op : Op) → op.Answer → List Uuid
  | .query (.deploymentsByApp _), .ok rows => List.map Deployment.id rows
  | _, _ => []

def isDelete : Op → Bool
  | .write (.deleteDeployment _) => true
  | _ => false

namespace Progress

def start : Progress := ⟨none, false, false, []⟩

def after (progress : Progress) (op : Op) (answer : op.Answer) : Progress where
  own := (drawnId op answer).or progress.own
  saved := progress.saved || (progress.own.isSome && savedId op = progress.own)
  deleted := progress.deleted || isDelete op
  listed := listedIds op answer ++ progress.listed

def step : Behaviour Effects Progress := fun op before answer next => next = before.after op answer

/-- One id is drawn; only the own record is saved unfinished, once; only other
records that were listed are marked. -/
def Permits (progress : Progress) : Op → Prop
  | .newUuid => progress.own = none
  | .write (.saveDeployment deployment) =>
      (deployment.status = .stopped ∧ deployment.id ∈ progress.listed ∧
        ∃ own, progress.own = some own ∧ deployment.id ≠ own) ∨
      (deployment.status ≠ .stopped ∧ progress.own = some deployment.id ∧ progress.saved = false)
  | .write (.deleteDeployment id) => progress.own = some id
  | .write (.saveApp _) | .write (.deleteApp _) => False
  | _ => True

def Ends (result : Except ApiError Deployment) (progress : Progress) : Prop :=
  ∀ deployment, result = .ok deployment →
    progress.own = some deployment.id ∧ progress.deleted = false

end Progress

/-- The rest of a call that has come this far. -/
def Requesting (progress : Progress) (program : Sys (Except ApiError Deployment)) : Prop :=
  program.Always Progress.step (fun progress op => progress.Permits op) Progress.Ends progress

/-- Calls that neither change nor depend on the progress. -/
def Plain : Op → Prop
  | .newUuid | .query (.deploymentsByApp _) => False
  | .write (.appendDeploymentLog _ _) | .write (.saveServiceDeployment _) => True
  | .write _ => False
  | _ => True

variable {progress : Progress}

/-- A call that draws, lists and deletes nothing and does not save the own record. -/
theorem after_same {op : Op} {answer : op.Answer} (drawn : drawnId op answer = none)
    (listed : listedIds op answer = []) (kept : isDelete op = false)
    (other : ∀ id, progress.own = some id → savedId op ≠ some id) :
    progress.after op answer = progress := by
  have unsaved : (progress.own.isSome && decide (savedId op = progress.own)) = false := by
    cases own : progress.own with
    | none => rfl
    | some id => simpa using other id own
  unfold Progress.after
  rw [drawn, listed, kept, unsaved]
  simp

theorem plain_after {op : Op} (plain : Plain op) (progress : Progress) (answer : op.Answer) :
    progress.after op answer = progress := by
  cases op with
  | query wanted =>
      cases wanted with
      | deploymentsByApp appId => exact plain.elim
      | _ => exact after_same rfl rfl rfl fun id _ => (Option.some_ne_none id).symm
  | write change =>
      cases change with
      | appendDeploymentLog id line =>
          exact after_same rfl rfl rfl fun id _ => (Option.some_ne_none id).symm
      | saveServiceDeployment row =>
          exact after_same rfl rfl rfl fun id _ => (Option.some_ne_none id).symm
      | _ => exact plain.elim
  | newUuid => exact plain.elim
  | _ => exact after_same rfl rfl rfl fun id _ => (Option.some_ne_none id).symm

theorem listed_after (progress : Progress) (appId : Uuid) (rows : List Deployment) :
    ∀ row ∈ rows, row.id ∈
      (progress.after (.query (.deploymentsByApp appId)) (.ok rows)).listed := by
  intro row member
  exact List.mem_append_left _ (List.mem_map_of_mem member)

theorem plain_permitted (progress : Progress) (op : Op) (plain : Plain op) :
    progress.Permits op := by
  cases op with
  | write change =>
      cases change with
      | appendDeploymentLog id line => trivial
      | saveServiceDeployment row => trivial
      | _ => exact plain.elim
  | newUuid => exact plain.elim
  | _ => trivial

theorem plain_always {Value : Type} {program : Sys Value} (plain : program.Calls Plain)
    (progress : Progress) :
    program.Always Progress.step (fun progress op => progress.Permits op)
      (fun _ after => progress = after) progress := by
  have kept : program.Always Progress.step (fun _ op => Plain op)
      (fun _ after => progress = after) progress := by
    apply plain.always
    · rintro op before answer after allowed rfl rfl
      exact (plain_after allowed progress answer).symm
    · rfl
  exact kept.restrict (fun _ _ _ _ possible => possible) plain_permitted

theorem supersede_requesting {own : Uuid} {deployment : Deployment}
    (drawn : progress.own = some own) (listed : deployment.id ∈ progress.listed)
    (stale : isStale own deployment = true) :
    (supersede own deployment).run.Always Progress.step (fun progress op => progress.Permits op)
      (fun _ after => progress = after) progress := by
  have other : deployment.id ≠ own := by
    intro same
    simp [isStale, same] at stale
  have notOwn : progress.own ≠ some deployment.id := by
    rw [drawn]
    exact fun same => other (Option.some.inj same).symm
  unfold supersede
  apply (plain_always (@op_calls Plain .utcNow trivial) progress).run_lift_bind
  rintro now _ rfl
  apply (plain_always (stop_rows_calls trivial _) progress).run_lift_bind
  rintro rows _ rfl
  apply (plain_always (or_internal_calls (op_calls trivial)) progress).run_bind
  rintro logged _ rfl
  rcases logged with error | _
  · rfl
  apply always_run_bind.mpr
  apply or_internal_always.mpr
  apply op_always.mpr
  constructor
  · exact Or.inl ⟨rfl, listed, own, drawn, other⟩
  rintro saved _ rfl
  have same : progress.after (.write (.saveDeployment (stoppedClone deployment now rows))) saved =
      progress := by
    apply after_same rfl rfl rfl
    intro id isOwn saves
    rw [isOwn] at notOwn
    exact notOwn saves.symm
  rw [same]
  rcases saved with message | _
  · rfl
  · exact plain_always (calls_for_each _ fun row _ => or_internal_calls (op_calls trivial)) progress

theorem children_requesting (seen : Progress) (rows : List Deployment) :
    (Store.withServiceDeployments rows).run.Always Progress.step
      (fun progress op => progress.Permits op)
      (fun result after => Joined rows result ∧ seen = after) seen := by
  have children : (Store.withServiceDeployments rows).run.Under (fun _ _ => True) Plain
      (Joined rows) := with_service_deployments_joined (fun _ => trivial) rows
  have stays : (Store.withServiceDeployments rows).run.Always Progress.step (fun _ op => Plain op)
      (fun result after => Joined rows result ∧ seen = after) seen := by
    apply children.always (fun _ _ _ _ _ _ => trivial)
    · rintro op before answer after allowed rfl rfl
      exact (plain_after allowed seen answer).symm
    · rfl
  exact stays.restrict (fun _ _ _ _ possible => possible) plain_permitted

theorem mark_listed_requesting {seen : Progress} {own : Uuid} {rows listed : List Deployment}
    (drawn : seen.own = some own) (known : ∀ row ∈ rows, row.id ∈ seen.listed)
    (joined : Joined rows (.ok listed)) :
    (forEach (fun deployment => (supersede own deployment).run)
      (listed.filter (isStale own))).Always Progress.step (fun progress op => progress.Permits op)
        (fun _ after => seen = after) seen := by
  apply always_for_each (fun _ after => seen = after) _ []
  · rfl
  · exact fun _ same => same
  · rintro before deployment after _ split rfl
    have member : deployment ∈ listed.filter (isStale own) := by
      rw [split]
      simp
    obtain ⟨inListed, stale⟩ := List.mem_filter.mp member
    obtain ⟨row, inRows, found, shape⟩ := joined listed rfl deployment inListed
    have seenId : deployment.id ∈ seen.listed := by
      rw [shape]
      exact known row inRows
    apply (supersede_requesting drawn seenId stale).mono
    rintro outcome _ rfl
    cases outcome with
    | ok _ => rfl
    | error error => rfl

/-- What `supersede_stale_deployments` marks, it has listed. -/
theorem supersede_stale_requesting {own : Uuid} (appId : Uuid) (drawn : progress.own = some own) :
    (supersedeStaleDeployments appId own).run.Always Progress.step
      (fun progress op => progress.Permits op)
      (fun _ after => after.own = some own ∧ after.deleted = progress.deleted) progress := by
  unfold supersedeStaleDeployments
  apply always_run_bind.mpr
  apply or_internal_always.mpr
  unfold Store.listDeploymentsByApp
  apply always_run_bind.mpr
  apply always_op trivial
  rintro answer _ rfl
  rcases answer with message | rows
  · exact ⟨drawn, Bool.or_false _⟩
  apply (children_requesting _ rows).mono
  rintro result _ ⟨joined, rfl⟩
  rcases result with message | listed
  · exact ⟨drawn, Bool.or_false _⟩
  have known := listed_after progress appId rows
  have marked := @mark_listed_requesting
    (progress.after (.query (.deploymentsByApp appId)) (.ok rows)) own rows listed drawn known joined
  apply marked.mono
  rintro outcome _ rfl
  exact ⟨drawn, Bool.or_false _⟩

theorem enqueue_job_requesting {progress : Progress} {id : Uuid} (request : DeploymentRequest)
    (source : DeploymentSource) (drawn : progress.own = some id) :
    (enqueueJob request id source).run.Always Progress.step (fun progress op => progress.Permits op)
      (fun result after => after.own = some id ∧
        (result = .ok () → after.deleted = progress.deleted)) progress := by
  unfold enqueueJob
  apply (plain_always (@op_calls Plain (.sendJob _) trivial) progress).run_lift_bind
  rintro sent _ rfl
  rcases sent with message | _
  · apply always_run_lift_bind.mpr
    apply ignore_always.mpr
    apply always_op drawn
    rintro answer _ rfl
    apply always_run_throw.mpr
    exact ⟨drawn, fun absurd => by cases absurd⟩
  · apply always_run_pure.mpr
    exact ⟨drawn, fun _ => rfl⟩

theorem cleanup_stale_requesting {id : Uuid} (request : DeploymentRequest)
    (drawn : progress.own = some id) :
    (cleanupStale request id).Always Progress.step (fun progress op => progress.Permits op)
      (fun _ after => after.own = some id ∧ after.deleted = progress.deleted) progress := by
  unfold cleanupStale
  split
  · apply ignore_always.mpr
    exact supersede_stale_requesting request.app.id drawn
  · exact always_pure.mpr ⟨drawn, rfl⟩

theorem queue_deployment_requesting (request : DeploymentRequest) :
    Requesting .start (queueDeployment request).run := by
  unfold Requesting queueDeployment
  apply (plain_always (Queueing.request_source_calls (fun _ => trivial) request) _).run_bind
  rintro source _ rfl
  rcases source with error | source
  · intro deployment absurd
    cases absurd
  apply always_run_lift_bind.mpr
  apply op_always.mpr
  refine ⟨rfl, ?_⟩
  rintro id _ rfl
  apply (plain_always (@op_calls Plain .utcNow trivial) _).run_lift_bind
  rintro now _ rfl
  apply always_run_bind.mpr
  apply or_internal_always.mpr
  apply op_always.mpr
  have pending : (request.deployment id now source).status ≠ .stopped := by
    simp [DeploymentRequest.deployment, Deployment.new]
  refine ⟨Or.inr ⟨pending, rfl, rfl⟩, ?_⟩
  rintro saved _ rfl
  rcases saved with message | _
  · intro deployment absurd
    cases absurd
  apply (@enqueue_job_requesting _ id request source rfl).run_bind
  rintro sent after ⟨drawn, kept⟩
  rcases sent with error | _
  · intro deployment absurd
    cases absurd
  apply (cleanup_stale_requesting request drawn).run_lift_bind
  rintro _ next ⟨drawn, deleted⟩
  apply always_run_pure.mpr
  intro deployment same
  cases same
  exact ⟨drawn, deleted.trans (kept rfl)⟩

section Runs

variable {Caller : Type}

/-- Any number of `queue_deployment` calls. -/
def requesting (requestOf : Caller → DeploymentRequest) (world : World) :
    Pool Effects Caller (Except ApiError Deployment) World where
  threads := fun caller => (queueDeployment (requestOf caller)).run
  state := world

def Draws (caller : Caller) (id : Uuid) (history : List (Event Effects Caller)) : Prop :=
  ∃ event ∈ history, event.thread = caller ∧ drawnId event.op event.answer = some id

/-- A step has persisted the record as stopped. -/
def Marked (id : Uuid) (history : List (Event Effects Caller)) : Prop :=
  ∃ event ∈ history, savedStatus id event.op event.answer = some .stopped

def MarksWhileStanding :
    Pool.Restriction Effects Caller (Except ApiError Deployment) World :=
  fun history pool event => ∀ deployment, event.op = .write (.saveDeployment deployment) →
    deployment.status = .stopped → ∀ own, Draws event.thread own history →
      pool.state.db.statusOf own ≠ some .stopped

/-- What holds of a run, given how far each call has come. -/
structure RequestInvariant (progress : Caller → Progress) (history : List (Event Effects Caller))
    (pool : Pool Effects Caller (Except ApiError Deployment) World) : Prop where
  rest : ∀ caller, Requesting (progress caller) (pool.threads caller)
  drawn : ∀ caller id, (progress caller).own = some id → Draws caller id history
  distinct : ∀ first second id, (progress first).own = some id → (progress second).own = some id →
    first = second
  storedIssued : ∀ row ∈ pool.state.db.deployments, row.id ∈ pool.state.issued
  listedIssued : ∀ caller, ∀ id ∈ (progress caller).listed, id ∈ pool.state.issued
  ownIssued : ∀ caller id, (progress caller).own = some id → id ∈ pool.state.issued
  unsaved : ∀ caller id, (progress caller).own = some id → (progress caller).saved = false →
    (∀ row ∈ pool.state.db.deployments, row.id ≠ id) ∧ ∀ other, id ∉ (progress other).listed
  marked : ∀ id, Marked id history → pool.state.db.statusOf id = some .stopped ∨
    ∃ caller, (progress caller).own = some id ∧ (progress caller).deleted = true
  standing : (∀ id, ¬Marked id history) ∨ ∃ caller own, (progress caller).own = some own ∧
    ((progress caller).deleted = true ∨ ¬Marked own history)

variable {history : List (Event Effects Caller)}

theorem marked_append {id : Uuid} {event : Event Effects Caller}
    (marked : Marked id (history ++ [event])) :
    Marked id history ∨ savedStatus id event.op event.answer = some .stopped := by
  obtain ⟨found, member, saved⟩ := marked
  rcases List.mem_append.mp member with past | last
  · exact Or.inl ⟨found, past, saved⟩
  · rw [List.mem_singleton] at last
    subst last
    exact Or.inr saved

theorem draws_append {caller : Caller} {id : Uuid} (event : Event Effects Caller)
    (draws : Draws caller id history) : Draws caller id (history ++ [event]) := by
  obtain ⟨found, member, drew⟩ := draws
  exact ⟨found, List.mem_append_left _ member, drew⟩

section Step

variable {progress : Progress} {op : Op} {before after : World} {answer : op.Answer}

theorem own_after {id : Uuid}
    (own : (progress.after op answer).own = some id) :
    progress.own = some id ∨ (op = .newUuid ∧ drawnId op answer = some id) := by
  rcases Option.or_eq_some_iff.mp own with drawn | ⟨-, kept⟩
  · refine Or.inr ⟨?_, drawn⟩
    unfold drawnId at drawn
    split at drawn
    · rfl
    · cases drawn
  · exact Or.inl kept

theorem own_stays {id : Uuid} (permitted : progress.Permits op) (own : progress.own = some id) :
    (progress.after op answer).own = some id := by
  cases drawn : drawnId op answer with
  | none =>
      unfold Progress.after
      rw [drawn]
      exact own
  | some new =>
      unfold drawnId at drawn
      split at drawn
      · rw [show progress.own = none from permitted] at own
        cases own
      · cases drawn

theorem deleted_stays (deleted : progress.deleted = true) :
    (progress.after op answer).deleted = true := by
  unfold Progress.after
  rw [deleted]
  rfl

theorem listed_cases {id : Uuid} (possible : Possible op before answer after)
    (listed : id ∈ (progress.after op answer).listed) :
    id ∈ progress.listed ∨ ∃ row ∈ before.db.deployments, row.id = id := by
  rcases List.mem_append.mp listed with fresh | past
  · unfold listedIds at fresh
    split at fresh
    · rename_i appId rows
      obtain ⟨row, member, rfl⟩ := List.mem_map.mp fresh
      rcases (possible_query possible).2 with read | ⟨message, failed⟩
      · have same : rows = before.db.deploymentRowsByApp appId := Except.ok.inj read
        rw [same, Database.deploymentRowsByApp, List.mem_insertionSort] at member
        exact Or.inr ⟨row, (List.mem_filter.mp member).1, rfl⟩
      · cases failed
    · exact absurd fresh List.not_mem_nil
  · exact Or.inl past

theorem unsaved_before (unsaved : (progress.after op answer).saved = false) :
    progress.saved = false ∧ ∀ id, progress.own = some id → savedId op ≠ some id := by
  have parts := Bool.or_eq_false_iff.mp unsaved
  refine ⟨parts.1, fun id own saves => ?_⟩
  have not := parts.2
  rw [own, saves] at not
  simp at not

theorem stored_cases {row : Deployment} (permitted : progress.Permits op)
    (possible : Possible op before answer after) (stored : row ∈ after.db.deployments) :
    (∃ old ∈ before.db.deployments, old.id = row.id) ∨
      ∃ deployment, op = .write (.saveDeployment deployment) ∧ deployment.id = row.id := by
  rcases possible_written possible with same | ⟨change, db, rfl, applied, rfl⟩
  · rw [same] at stored
    exact Or.inl ⟨row, stored, rfl⟩
  · cases change with
    | saveDeployment deployment =>
        obtain ⟨-, -, deployments, -⟩ := Database.save_deployment_shape applied
        dsimp only at stored
        rw [deployments] at stored
        rcases mem_upsert.mp stored with rfl | ⟨inTable, -⟩
        · exact Or.inr ⟨deployment, rfl, rfl⟩
        · exact Or.inl ⟨row, inTable, rfl⟩
    | saveServiceDeployment record =>
        rw [Database.save_service_deployment_shape applied] at stored
        exact Or.inl ⟨row, stored, rfl⟩
    | appendDeploymentLog deployment line =>
        rw [Database.append_deployment_log_shape applied] at stored
        exact Or.inl ⟨row, stored, rfl⟩
    | deleteDeployment id =>
        cases applied
        obtain ⟨old, kept, shape⟩ := List.mem_map.mp stored
        refine Or.inl ⟨old, (List.mem_filter.mp kept).1, ?_⟩
        rw [← shape]
        split
        · rfl
        · rfl
    | saveApp app => exact permitted.elim
    | deleteApp id => exact permitted.elim

end Step

section Steps

variable {progress : Caller → Progress} {history : List (Event Effects Caller)}
  {pool after : Pool Effects Caller (Except ApiError Deployment) World}
  {event : Event Effects Caller} {caller : Caller}

theorem saved_issued (inv : RequestInvariant progress history pool) {deployment : Deployment}
    (permitted : (progress caller).Permits (.write (.saveDeployment deployment))) :
    deployment.id ∈ pool.state.issued := by
  rcases permitted with ⟨-, listed, -⟩ | ⟨-, own, -⟩
  · exact inv.listedIssued caller _ listed
  · exact inv.ownIssued caller _ own

variable {id : Uuid}

theorem drawn_fresh (possible : Possible event.op pool.state event.answer after.state)
    (drawn : drawnId event.op event.answer = some id) :
    id ∉ pool.state.issued ∧ id ∈ after.state.issued := by
  obtain ⟨thread, op, answer⟩ := event
  dsimp only at possible drawn
  cases op with
  | newUuid =>
      obtain ⟨fresh, shape⟩ := possible_uuid possible
      cases drawn
      rw [shape]
      exact ⟨fresh, List.mem_cons_self⟩
  | query wanted => cases drawn
  | write change => cases drawn
  | docker request => cases drawn
  | external action => cases drawn
  | utcNow => cases drawn
  | iterationOrder keys => cases drawn
  | hashOrder count => cases drawn
  | sendJob job => cases drawn
  | receiveJob => cases drawn
  | loadFlag flag => cases drawn
  | storeFlag flag value => cases drawn

variable [DecidableEq Caller]

def advance (progress : Caller → Progress) (event : Event Effects Caller) : Caller → Progress :=
  Function.update progress event.thread
    ((progress event.thread).after event.op event.answer)

theorem advance_own (own : (advance progress event caller).own = some id) :
    (progress caller).own = some id ∨
      (caller = event.thread ∧ event.op = .newUuid ∧
        drawnId event.op event.answer = some id) := by
  by_cases same : caller = event.thread
  · subst same
    unfold advance at own
    rw [Function.update_self] at own
    rcases own_after own with kept | ⟨draws, drawn⟩
    · exact Or.inl kept
    · exact Or.inr ⟨rfl, draws, drawn⟩
  · unfold advance at own
    rw [Function.update_of_ne same] at own
    exact Or.inl own

theorem advance_stays {caller : Caller} {id : Uuid}
    (permitted : (progress event.thread).Permits event.op)
    (own : (progress caller).own = some id) :
    (advance progress event caller).own = some id ∧
      ((progress caller).deleted = true → (advance progress event caller).deleted = true) := by
  unfold advance
  by_cases same : caller = event.thread
  · subst same
    rw [Function.update_self]
    exact ⟨own_stays permitted own, deleted_stays⟩
  · rw [Function.update_of_ne same]
    exact ⟨own, fun deleted => deleted⟩

theorem advance_listed (possible : Possible event.op pool.state event.answer after.state)
    (listed : id ∈ (advance progress event caller).listed) :
    id ∈ (progress caller).listed ∨ ∃ row ∈ pool.state.db.deployments, row.id = id := by
  by_cases same : caller = event.thread
  · subst same
    unfold advance at listed
    rw [Function.update_self] at listed
    exact listed_cases possible listed
  · unfold advance at listed
    rw [Function.update_of_ne same] at listed
    exact Or.inl listed

/-- The record of a call that has not saved it yet is neither stored nor listed. -/
theorem advance_unsaved (inv : RequestInvariant progress history pool)
    (permitted : (progress event.thread).Permits event.op)
    (possible : Possible event.op pool.state event.answer after.state)
    (own : (advance progress event caller).own = some id)
    (unsaved : (advance progress event caller).saved = false) :
    (∀ row ∈ after.state.db.deployments, row.id ≠ id) ∧
      ∀ other, id ∉ (advance progress event other).listed := by
  -- before the step the id was neither stored nor listed, whether drawn now or earlier
  have unknown : (∀ row ∈ pool.state.db.deployments, row.id ≠ id) ∧
      ∀ other, id ∉ (progress other).listed := by
    rcases advance_own own with earlier | ⟨-, -, drawn⟩
    · apply inv.unsaved caller id earlier
      by_cases same : caller = event.thread
      · subst same
        unfold advance at unsaved
        rw [Function.update_self] at unsaved
        exact (unsaved_before unsaved).1
      · unfold advance at unsaved
        rw [Function.update_of_ne same] at unsaved
        exact unsaved
    · have fresh := (drawn_fresh possible drawn).1
      constructor
      · intro row stored same
        exact fresh (same ▸ inv.storedIssued row stored)
      · intro other listed
        exact fresh (inv.listedIssued other id listed)
  constructor
  · intro row stored same
    rcases stored_cases permitted possible stored with
      ⟨old, before, sameId⟩ | ⟨deployment, isSave, sameId⟩
    · exact unknown.1 old before (sameId.trans same)
    · have savesId : deployment.id = id := sameId.trans same
      rw [isSave] at permitted
      rcases permitted with ⟨-, listed, -⟩ | ⟨-, isOwn, -⟩
      · exact unknown.2 event.thread (savesId ▸ listed)
      · rcases advance_own own with earlier | ⟨-, draws, -⟩
        · have sameCaller := inv.distinct event.thread caller id (savesId ▸ isOwn) earlier
          subst sameCaller
          unfold advance at unsaved
          rw [Function.update_self] at unsaved
          apply (unsaved_before unsaved).2 id earlier
          rw [isSave, ← savesId]
          rfl
        · rw [isSave] at draws
          cases draws
  · intro other listed
    rcases advance_listed possible listed with past | ⟨row, stored, same⟩
    · exact unknown.2 other past
    · exact unknown.1 row stored same

theorem row_of_status {db : Database} {status : DeploymentStatus}
    (stored : db.statusOf id = some status) : ∃ row ∈ db.deployments, row.id = id := by
  obtain ⟨row, found, -⟩ := Option.map_eq_some_iff.mp stored
  exact ⟨row, lookup_eq_some_mem found⟩

/-- A marked record stays stored as stopped, unless its own call deletes it. -/
theorem advance_marked (inv : RequestInvariant progress history pool)
    (permitted : (progress event.thread).Permits event.op)
    (possible : Possible event.op pool.state event.answer after.state)
    (marked : Marked id (history ++ [event])) :
    after.state.db.statusOf id = some .stopped ∨ ∃ caller,
      (advance progress event caller).own = some id ∧
        (advance progress event caller).deleted = true := by
  rcases marked_append marked with earlier | now
  · rcases inv.marked id earlier with stored | ⟨caller, own, deleted⟩
    · by_cases saves : Saves id event.op
      · left
        apply status_stays_stopped (fun not => absurd saves not) _ stored possible
        intro _
        unfold Saves at saves
        split at saves
        · rename_i deployment isSave
          rw [isSave] at permitted ⊢
          rcases permitted with ⟨stopped, -⟩ | ⟨-, own, unsaved⟩
          · exact stopped
          · obtain ⟨row, inTable, same⟩ := row_of_status stored
            exact absurd (same.trans saves.symm) ((inv.unsaved _ _ own unsaved).1 row inTable)
        · exact saves.elim
      · by_cases deletes : event.op = .write (.deleteDeployment id)
        · right
          have own : (progress event.thread).own = some id := by
            rw [deletes] at permitted
            exact permitted
          have isDeleted : isDelete event.op = true := by
            rw [deletes]
            rfl
          refine ⟨event.thread, (advance_stays permitted own).1, ?_⟩
          unfold advance
          rw [Function.update_self]
          exact Bool.or_eq_true_iff.mpr (Or.inr isDeleted)
        · left
          rw [status_kept ?_ possible]
          · exact stored
          · unfold Op.KeepsStatus
            split
            · rename_i change isWrite
              rw [isWrite] at saves permitted deletes
              cases change with
              | saveDeployment deployment => exact saves
              | deleteDeployment other =>
                  intro same
                  rw [same] at deletes
                  exact deletes rfl
              | deleteApp app => exact permitted.elim
              | _ => trivial
            · trivial
    · right
      obtain ⟨ownStays, deletedStays⟩ := @advance_stays _ progress event _ caller id permitted own
      exact ⟨caller, ownStays, deletedStays deleted⟩
  · exact Or.inl (saved_status_stored now possible)

/-- The call that has just marked another record has an unmarked one. -/
theorem advance_standing (inv : RequestInvariant progress history pool)
    (permitted : (progress event.thread).Permits event.op)
    (met : MarksWhileStanding history pool event) :
    (∀ id, ¬Marked id (history ++ [event])) ∨ ∃ caller own,
      (advance progress event caller).own = some own ∧
        ((advance progress event caller).deleted = true ∨ ¬Marked own (history ++ [event])) := by
  by_cases marks : ∃ id, savedStatus id event.op event.answer = some .stopped
  · obtain ⟨id, saved⟩ := marks
    obtain ⟨deployment, isSave, sameId, stopped⟩ := saves_of_saved_status saved
    have allowed := permitted
    rw [isSave] at allowed
    rcases allowed with ⟨-, -, own, drawn, other⟩ | ⟨running, -⟩
    · right
      obtain ⟨ownStays, deletedStays⟩ := @advance_stays _ progress event _ _ own permitted drawn
      refine ⟨event.thread, own, ownStays, ?_⟩
      by_cases wasMarked : Marked own history
      · left
        rcases inv.marked own wasMarked with stored | ⟨caller, sameOwn, deleted⟩
        · have draws := inv.drawn event.thread own drawn
          exact absurd stored (met deployment isSave stopped own draws)
        · have sameCaller := inv.distinct caller event.thread own sameOwn drawn
          exact deletedStays (sameCaller ▸ deleted)
      · right
        intro marked
        rcases marked_append marked with earlier | now
        · exact wasMarked earlier
        · obtain ⟨again, isSame, ownId, -⟩ := saves_of_saved_status now
          rw [isSave] at isSame
          cases isSame
          exact other ownId
    · exact absurd stopped running
  · have unchanged : ∀ id, Marked id (history ++ [event]) → Marked id history := by
      intro id marked
      rcases marked_append marked with earlier | now
      · exact earlier
      · exact absurd ⟨id, now⟩ marks
    rcases inv.standing with none | ⟨caller, own, drawn, holds⟩
    · exact Or.inl fun id marked => none id (unchanged id marked)
    · right
      obtain ⟨ownStays, deletedStays⟩ := @advance_stays _ progress event _ caller own permitted drawn
      refine ⟨caller, own, ownStays, ?_⟩
      rcases holds with deleted | unmarked
      · exact Or.inl (deletedStays deleted)
      · exact Or.inr fun marked => unmarked (unchanged own marked)

theorem request_step (inv : RequestInvariant progress history pool)
    (taken : Pool.Step Possible pool event after) (met : MarksWhileStanding history pool event) :
    RequestInvariant (advance progress event) (history ++ [event]) after := by
  obtain ⟨next, ready, possible, moved⟩ := taken.own
  have rest := inv.rest event.thread
  rw [ready] at rest
  obtain ⟨permitted, continues⟩ := always_call.mp rest
  constructor
  · intro caller
    by_cases same : caller = event.thread
    · subst same
      unfold advance
      rw [Function.update_self, moved]
      exact continues event.answer _ rfl
    · unfold advance
      rw [Function.update_of_ne same, taken.other same]
      exact inv.rest caller
  · intro caller id own
    rcases advance_own own with earlier | ⟨rfl, -, drawn⟩
    · exact draws_append event (inv.drawn caller id earlier)
    · exact ⟨event, List.mem_append_right _ (List.mem_singleton_self event), rfl, drawn⟩
  · intro first second id ownFirst ownSecond
    rcases advance_own ownFirst with oldFirst | ⟨rfl, -, drawn⟩
    · rcases advance_own ownSecond with oldSecond | ⟨rfl, -, drawn⟩
      · exact inv.distinct first second id oldFirst oldSecond
      · exact absurd (inv.ownIssued first id oldFirst) (drawn_fresh possible drawn).1
    · rcases advance_own ownSecond with oldSecond | ⟨rfl, -, -⟩
      · exact absurd (inv.ownIssued second id oldSecond) (drawn_fresh possible drawn).1
      · rfl
  · intro row stored
    apply possible_issued possible
    rcases stored_cases permitted possible stored with ⟨old, before, same⟩ | ⟨deployment, isSave, same⟩
    · rw [← same]
      exact inv.storedIssued old before
    · rw [isSave] at permitted
      rw [← same]
      exact saved_issued inv permitted
  · intro caller id listed
    apply possible_issued possible
    rcases advance_listed possible listed with past | ⟨row, stored, same⟩
    · exact inv.listedIssued caller id past
    · rw [← same]
      exact inv.storedIssued row stored
  · intro caller id own
    rcases advance_own own with earlier | ⟨-, -, drawn⟩
    · exact possible_issued possible (inv.ownIssued caller id earlier)
    · exact (drawn_fresh possible drawn).2
  · intro caller id own unsaved
    exact advance_unsaved inv permitted possible own unsaved
  · intro id marked
    exact advance_marked inv permitted possible marked
  · exact advance_standing inv permitted met

end Steps

variable [DecidableEq Caller]

/-- Of the records of calls that all succeed, one is never marked, in every run in
which a call marks only while its own record stands. -/
theorem request_survives [Nonempty Caller] (requestOf : Caller → DeploymentRequest) (world : World)
    (issued : ∀ row ∈ world.db.deployments, row.id ∈ world.issued)
    {history : List (Event Effects Caller)}
    {pool : Pool Effects Caller (Except ApiError Deployment) World}
    (trace : Pool.Trace Possible MarksWhileStanding (requesting requestOf world) history pool)
    (created : Caller → Deployment)
    (succeeded : ∀ caller, (pool.threads caller).returned = some (.ok (created caller))) :
    ∃ caller, ¬Marked (created caller).id history := by
  have inv : ∃ progress, RequestInvariant progress history pool := by
    apply trace.invariant fun history pool => ∃ progress, RequestInvariant progress history pool
    · refine ⟨fun _ => .start, ?_⟩
      constructor
      · exact fun caller => queue_deployment_requesting (requestOf caller)
      · intro caller id absurd
        cases absurd
      · intro first second id absurd
        cases absurd
      · exact issued
      · intro caller id listed
        exact absurd listed List.not_mem_nil
      · intro caller id absurd
        cases absurd
      · intro caller id absurd
        cases absurd
      · intro id marked
        obtain ⟨event, member, -⟩ := marked
        exact absurd member List.not_mem_nil
      · left
        intro id marked
        obtain ⟨event, member, -⟩ := marked
        exact absurd member List.not_mem_nil
    · intro history pool event after _ inv taken met
      obtain ⟨progress, inv⟩ := inv
      exact ⟨advance progress event, request_step inv taken met⟩
  obtain ⟨progress, inv⟩ := inv
  have ended : ∀ caller, (progress caller).own = some (created caller).id ∧
      (progress caller).deleted = false := by
    intro caller
    have rest := inv.rest caller
    rw [returned_eq_some (succeeded caller)] at rest
    exact always_pure.mp rest (created caller) rfl
  rcases inv.standing with none | ⟨caller, own, drawn, holds⟩
  · exact ⟨Classical.arbitrary Caller, none _⟩
  · refine ⟨caller, ?_⟩
    rcases holds with deleted | unmarked
    · rw [(ended caller).2] at deleted
      cases deleted
    · rw [(ended caller).1] at drawn
      cases drawn
      exact unmarked

end Runs

/-- `MarksWhileStanding` as a check. -/
def marksWhileStanding {Caller : Type} [DecidableEq Caller]
    (history : List (Event Effects Caller))
    (pool : Pool Effects Caller (Except ApiError Deployment) World)
    (event : Event Effects Caller) : Bool :=
  match event.op with
  | .write (.saveDeployment deployment) =>
      deployment.status ≠ .stopped ||
        history.all fun earlier =>
          earlier.thread ≠ event.thread ||
            (drawnId earlier.op earlier.answer).all fun own =>
              pool.state.db.statusOf own ≠ some .stopped
  | _ => true

theorem marks_while_standing_sound {Caller : Type} [DecidableEq Caller]
    (history : List (Event Effects Caller))
    (pool : Pool Effects Caller (Except ApiError Deployment) World)
    (event : Event Effects Caller) (passed : marksWhileStanding history pool event = true) :
    MarksWhileStanding history pool event := by
  intro deployment isSave stopped own draws
  obtain ⟨earlier, member, same, drawn⟩ := draws
  simp only [marksWhileStanding, isSave, stopped, ne_eq, not_true_eq_false, decide_false,
    Bool.false_or, List.all_eq_true] at passed
  have each := passed earlier member
  simpa [same, drawn] using each

instance {Caller : Type} (id : Uuid) (history : List (Event Effects Caller)) :
    Decidable (Marked id history) :=
  inferInstanceAs (Decidable (∃ event ∈ history,
    savedStatus id event.op event.answer = some .stopped))

def demoRequest : DeploymentRequest where
  ownerId := ⟨3⟩
  app := demoApp
  commitSha := "main"
  commitMessage := none
  branch := "main"
  rolloutStrategy := .startFirst
  rollbackFromDeploymentId := none
  sourceOverride := none
  cleanupStaleDeployments := true
  localBuildServiceId := none

def demoRequests : Pool Effects Bool (Except ApiError Deployment) World :=
  requesting (fun _ => demoRequest)
    { demoWorld with db := { demoWorld.db with deployments := [] } }

def createdBy {Caller : Type} (pool : Pool Effects Caller (Except ApiError Deployment) World)
    (caller : Caller) : Option Deployment :=
  (pool.threads caller).returned.bind Except.toOption

theorem returned_of_created {Caller : Type}
    {pool : Pool Effects Caller (Except ApiError Deployment) World} {caller : Caller}
    {deployment : Deployment} (created : createdBy pool caller = some deployment) :
    (pool.threads caller).returned = some (.ok deployment) := by
  obtain ⟨result, returned, isOk⟩ := Option.bind_eq_some_iff.mp created
  cases result with
  | ok value =>
      cases isOk
      exact returned
  | error error => cases isOk

/-- One call runs after the other: the second record is left. -/
theorem request_survives_in_turn :
    ∃ history pool, ∃ created : Bool → Deployment,
      Pool.Trace Possible MarksWhileStanding demoRequests history pool ∧
      (∀ caller, (pool.threads caller).returned = some (.ok (created caller))) ∧
      Marked (created true).id history ∧ ∃ caller, ¬Marked (created caller).id history := by
  have ran : ((Pool.executeChecked system marksWhileStanding (turns [(true, 6), (false, 10)]) []
      demoRequests).bind fun run => (createdBy run.2 true).bind fun first =>
        (createdBy run.2 false).map fun _ => decide (Marked first.id run.1)) = some true := by
    decide +kernel
  obtain ⟨⟨history, pool⟩, executed, rest⟩ := Option.bind_eq_some_iff.mp ran
  obtain ⟨first, createdFirst, rest⟩ := Option.bind_eq_some_iff.mp rest
  obtain ⟨second, createdSecond, marked⟩ := Option.map_eq_some_iff.mp rest
  have trace : Pool.Trace Possible MarksWhileStanding demoRequests history pool :=
    Pool.Trace.of_checked turns_admitted marks_while_standing_sound Pool.Trace.start executed
  have succeeded : ∀ caller, (pool.threads caller).returned =
      some (.ok (if caller then first else second)) := by
    intro caller
    cases caller with
    | true => exact returned_of_created createdFirst
    | false => exact returned_of_created createdSecond
  exact ⟨history, pool, fun caller => if caller then first else second, trace, succeeded,
    of_decide_eq_true marked,
    request_survives (fun _ => demoRequest) _ (by decide) trace _ succeeded⟩

/-- Both calls list before either marks: each stops the other's record. -/
theorem requests_stop_each_other :
    ∃ history pool, ∃ created : Bool → Deployment,
      Pool.Trace Possible (fun _ _ _ => True) demoRequests history pool ∧
      (∀ caller, (pool.threads caller).returned = some (.ok (created caller))) ∧
      ∀ caller, Marked (created caller).id history := by
  have ran : ((Pool.execute system (turns [(true, 4), (false, 4), (true, 3), (false, 3), (true, 3),
      (false, 3)]) demoRequests).bind fun run => (createdBy run.2 true).bind fun first =>
        (createdBy run.2 false).map fun second =>
          decide (Marked first.id run.1 ∧ Marked second.id run.1)) = some true := by
    decide +kernel
  obtain ⟨⟨history, pool⟩, executed, rest⟩ := Option.bind_eq_some_iff.mp ran
  obtain ⟨first, createdFirst, rest⟩ := Option.bind_eq_some_iff.mp rest
  obtain ⟨second, createdSecond, marked⟩ := Option.map_eq_some_iff.mp rest
  refine ⟨history, pool, fun caller => if caller then first else second,
    Pool.Trace.of_execute turns_admitted executed, ?_, ?_⟩
  · intro caller
    cases caller with
    | true => exact returned_of_created createdFirst
    | false => exact returned_of_created createdSecond
  · intro caller
    cases caller with
    | true => exact (of_decide_eq_true marked).1
    | false => exact (of_decide_eq_true marked).2

end Containr.Superseding
