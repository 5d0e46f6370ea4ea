import Containr.Api.Identity
import Containr.Api.Webhooks

/-!
# What a signed push deploys

The delivery is for the first app on the branch that the store lists. Whatever fails, nothing
is stored for another app; where nothing fails, that app gets a deployment if its switches let
the push through. So a push reaches all apps that asked for it exactly when the first one is
the only one that asked, and it stays with the user who signed it exactly when that app is the
user's or refuses the push.
-/

namespace Containr.Api.Webhooks

open Containr.Effect Containr.Effect.Program Containr.Api.Queueing Containr.Api.Services

/-- Queries answer with what is stored, or fail where they may. -/
def Reads (fault : Prop) (db : Database) : (op : Op) → op.Answer → Prop
  | .query wanted, answer =>
      answer = .ok (wanted.read db) ∨ fault ∧ ∃ message, answer = .error message
  | _, _ => True

def Got {Error Value : Type} (fault : Prop) (value : Value) (result : Except Error Value) : Prop :=
  result = .ok value ∨ fault ∧ ∃ error, result = .error error

/-- What `list_apps` joins to a row. -/
def joinedApp (db : Database) (row : App) : App :=
  { row with services := db.servicesByApp row.id }

def branchApp (db : Database) (push : PushEvent) (branch : String) : Option App :=
  db.appRows.find? (onBranch push.repository.htmlUrl branch)

section Reading

variable {fault : Prop} {db : Database}

theorem got_chain {Error Value Other : Type} {program : ExceptT Error (Program Effects) Value}
    {next : Value → ExceptT Error (Program Effects) Other} {value : Value} {result : Other}
    (first : program.run.Under (Reads fault db) Op.Reading (Got fault value))
    (rest : (next value).run.Under (Reads fault db) Op.Reading (Got fault result)) :
    (program >>= next).run.Under (Reads fault db) Op.Reading (Got fault result) := by
  apply first.run_bind
  intro outcome got
  rcases got with same | ⟨possible, error, same⟩
  · rw [same]
    exact rest
  · rw [same]
    exact Or.inr ⟨possible, error, rfl⟩

theorem got_return {Error Value : Type} (value : Value) :
    (Pure.pure value : ExceptT Error (Program Effects) Value).run.Under (Reads fault db) Op.Reading
      (Got fault value) := under_pure.mpr (Or.inl rfl)

theorem query_got (wanted : Query) :
    (Store.query wanted).run.Under (Reads fault db) Op.Reading (Got fault (wanted.read db)) := by
  apply under_op trivial
  intro answer reads
  exact reads

theorem with_services_got (rows : List App) :
    (Store.withServices rows).run.Under (Reads fault db) Op.Reading
      (Got fault (rows.map (joinedApp db))) := by
  induction rows with
  | nil => exact got_return []
  | cons row rows ih =>
      apply got_chain (query_got (.servicesByApp row.id))
      apply got_chain ih
      exact got_return _

theorem list_apps_got :
    Store.listApps.run.Under (Reads fault db) Op.Reading
      (Got fault (db.appRows.map (joinedApp db))) := by
  apply got_chain (query_got .apps)
  exact with_services_got db.appRows

theorem get_app_got (push : PushEvent) (branch : String) :
    (getAppByGithubUrl push.repository.htmlUrl branch).run.Under (Reads fault db) Op.Reading
      (Got fault ((branchApp db push branch).map (joinedApp db))) := by
  apply got_chain list_apps_got
  have same : onBranch push.repository.htmlUrl branch ∘ joinedApp db =
      onBranch push.repository.htmlUrl branch := by
    funext row
    have url : (joinedApp db row).githubUrl = row.githubUrl := rfl
    have onSame : (joinedApp db row).branch = branch ↔ row.branch = branch := Iff.rfl
    simp only [Function.comp, onBranch, url, onSame]
  rw [List.find?_map, same]
  exact got_return _

theorem internal_got {Value : Type} {program : Fallible Value} {value : Value}
    (under : program.run.Under (Reads fault db) Op.Reading (Got fault value)) :
    (Containr.orInternal program).run.Under (Reads fault db) Op.Reading (Got fault value) := by
  unfold Containr.orInternal
  apply under.bind
  intro result got
  apply under_pure.mpr
  rcases got with same | ⟨possible, message, same⟩
  · rw [same]
    exact Or.inl rfl
  · rw [same]
    exact Or.inr ⟨possible, internalError, rfl⟩

end Reading

def Adds (appId : Uuid) (before after : World) : Prop :=
  ∀ row ∈ after.db.deployments, row.appId = appId ∨ ∃ old ∈ before.db.deployments, old.id = row.id

def SavesFor (appId : Uuid) : Op → Prop
  | .write (.saveDeployment deployment) => deployment.appId = appId
  | _ => True

def ListsFor (appId : Uuid) : (op : Op) → op.Answer → Prop
  | .query (.deploymentsByApp other), .ok rows => other = appId → Kept (·.appId = appId) rows
  | _, _ => True

theorem marking_app (appId : Uuid) :
    Marking (ListsFor appId) (SavesFor appId) (·.appId = appId) appId where
  lists _ expected := expected rfl
  list := trivial
  saves _ held := held
  others op marks := by
    cases op with
    | write change =>
        cases change with
        | saveDeployment deployment => exact marks.elim
        | _ => trivial
    | _ => trivial
  joined _ _ held := held
  stopped _ _ _ held := held

theorem queues_for (appId : Uuid) (op : Op) (queues : Queues op) : SavesFor appId op := by
  cases op with
  | write change =>
      cases change with
      | saveDeployment deployment => exact queues.elim
      | _ => trivial
  | _ => trivial

variable {appId : Uuid}

theorem lists_for {op : Op} {before after : World} {answer : op.Answer}
    (possible : Possible op before answer after) : ListsFor appId op answer := by
  cases op with
  | query wanted =>
      obtain ⟨-, answered | ⟨message, failed⟩⟩ := possible_query possible
      · rw [answered]
        cases wanted with
        | deploymentsByApp other =>
            intro same row member
            have listed : row ∈ before.db.deploymentRowsByApp other := member
            unfold Database.deploymentRowsByApp at listed
            rw [List.mem_insertionSort, List.mem_filter] at listed
            rw [← same]
            simpa using listed.2
        | _ => trivial
      · rw [failed]
        cases wanted <;> trivial
  | _ => trivial

variable {start : World}

theorem adds_write {before db : Database} {change : Write}
    (held : ∀ row ∈ before.deployments, row.appId = appId ∨
      ∃ old ∈ start.db.deployments, old.id = row.id) (saves : SavesFor appId (.write change))
    (applied : change.apply before = some db) :
    ∀ row ∈ db.deployments, row.appId = appId ∨ ∃ old ∈ start.db.deployments, old.id = row.id := by
  cases change with
  | saveApp app =>
      rw [Database.save_app_deployments applied]
      exact held
  | deleteApp id =>
      rw [← Option.some.inj applied]
      intro row member
      exact held row (List.mem_filter.mp member).1
  | saveDeployment deployment =>
      obtain ⟨-, -, deployments, -⟩ := Database.save_deployment_shape applied
      rw [deployments]
      intro row member
      rcases mem_upsert.mp member with same | ⟨old, -⟩
      · rw [same]
        exact Or.inl saves
      · exact held row old
  | deleteDeployment id =>
      rw [← Option.some.inj applied]
      intro row member
      obtain ⟨old, kept, same⟩ := List.mem_map.mp member
      have known := held old (List.mem_filter.mp kept).1
      rw [← same]
      split
      · exact known
      · exact known
  | saveServiceDeployment row =>
      rw [Database.save_service_deployment_shape applied]
      exact held
  | appendDeploymentLog id line =>
      rw [Database.append_deployment_log_shape applied]
      exact held

theorem adds_step {op : Op} {before after : World} {answer : op.Answer} (saves : SavesFor appId op)
    (held : Adds appId start before) (possible : Possible op before answer after) :
    Adds appId start after := by
  by_cases writes : ∃ change, op = .write change
  · obtain ⟨change, rfl⟩ := writes
    rcases possible_write possible with ⟨-, db, applied, same⟩ | ⟨same, -⟩
    · rw [same]
      exact adds_write held saves applied
    · rw [same]
      exact held
  · have same := possible_db possible fun change isWrite => writes ⟨change, isWrite⟩
    unfold Adds
    rw [same]
    exact held

theorem deploy_push_adds (push : PushEvent) (app : App) {world : World}
    (held : Adds app.id start world) :
    (deployPush push app).run.Ensures Possible (fun _ after => Adds app.id start after) world := by
  have queued : (deployPush push app).run.Under (ListsFor app.id) (SavesFor app.id)
      (OnOk fun _ => True) := by
    have token : (resolveRemoteDeploymentSource app.ownerId app).run.Calls (SavesFor app.id) := by
      exact Calls.run_return (op_calls trivial)
    apply under_chain token.under_ok
    intro source _
    have request := @queue_deployment_keeps _ _ _ (pushRequest push app source)
      (marking_app app.id) (queues_for app.id) fun _ _ _ => rfl
    apply under_chain request
    intro deployment _
    exact under_return trivial
  have run := @Under.always Effects _ _ _ World Possible (Adds app.id start) _ _ queued
    (fun _ _ _ _ _ possible => lists_for possible)
    (fun _ _ _ _ saves before possible => adds_step saves before possible) world held
  exact (run.mono fun _ _ both => both.2).restrict (fun _ _ _ _ possible => possible)
    fun _ _ _ => trivial

def Accepts (lib : Libraries) (push : PushEvent) (app : App) : Prop :=
  app.autoDeployEnabled = true ∧
    shouldTriggerForWatchPaths lib push app.autoDeployWatchPaths = .ok true

/-- What is stored changes for the app on the branch only, and only if it accepts the push. -/
def Confined (lib : Libraries) (push : PushEvent) (branch : String) (before after : World) : Prop :=
  after.db = before.db ∨ ∃ app, branchApp before.db push branch = some app ∧
    Accepts lib push app ∧ Adds app.id before after

section Handling

variable {lib : Libraries} {push : PushEvent} {branch : String} {app : App}

theorem answer_push_refuses (refuses : ¬Accepts lib push app) :
    ∃ result, answerPush lib push app = ExceptT.mk (.pure result) := by
  unfold answerPush
  by_cases enabled : app.autoDeployEnabled = true
  · rw [if_neg (by simp [enabled])]
    cases triggers : shouldTriggerForWatchPaths lib push app.autoDeployWatchPaths with
    | error message => exact ⟨_, rfl⟩
    | ok matched =>
        cases matched with
        | false => exact ⟨_, rfl⟩
        | true => exact absurd ⟨enabled, triggers⟩ refuses
  · rw [if_pos (by simp [enabled])]
    exact ⟨_, rfl⟩

theorem answer_push_accepts (accepts : Accepts lib push app) :
    answerPush lib push app = deployPush push app := by
  unfold answerPush
  rw [if_neg (by simp [accepts.1]), accepts.2]

theorem reads_possible {op : Op} {before after : World} {answer : op.Answer}
    (possible : Possible op before answer after) : Reads True before.db op answer := by
  cases op with
  | query wanted =>
      obtain ⟨-, answered | failed⟩ := possible_query possible
      · exact Or.inl answered
      · exact Or.inr ⟨trivial, failed⟩
  | _ => trivial

theorem lookup_always {fault : Prop} {can : Behaviour Effects World} {world : World}
    (reads : ∀ op before answer after, can op before answer after →
      Reads fault before.db op answer)
    (keeps : ∀ op before answer after, Op.Reading op → can op before answer after →
      after.db = before.db) (push : PushEvent) (branch : String) :
    (Containr.orInternal (getAppByGithubUrl push.repository.htmlUrl branch)).run.Ensures can
      (fun result after => after.db = world.db ∧
        Got fault ((branchApp world.db push branch).map (joinedApp world.db)) result) world := by
  have under := internal_got (@get_app_got fault world.db push branch)
  have run := @Under.always Effects _ _ _ World can (fun state => state.db = world.db) _ _ under
    (fun op before answer after same possible => same ▸ reads op before answer after possible)
    (fun op before answer after reading same possible =>
      (keeps op before answer after reading possible).trans same) world rfl
  exact (run.mono fun _ _ both => ⟨both.2, both.1⟩).restrict (fun _ _ _ _ possible => possible)
    fun _ _ _ => trivial

theorem handle_push_confined (lib : Libraries) (push : PushEvent) (branch : String)
    (world : World) :
    (handlePush lib push branch).run.Ensures Possible
      (fun _ after => Confined lib push branch world after) world := by
  unfold handlePush
  apply always_run_bind.mpr
  have found := @lookup_always True Possible world (fun _ _ _ _ possible => reads_possible possible)
    (fun _ _ _ _ reading possible => reading_keeps_db reading possible) push branch
  apply found.mono
  intro result after facts
  obtain ⟨same, got⟩ := facts
  rcases got with isResult | ⟨-, error, isResult⟩
  · rw [isResult]
    cases isApp : branchApp world.db push branch with
    | none => exact always_run_pure.mpr (Or.inl same)
    | some row =>
        dsimp only [Option.map_some]
        by_cases accepts : Accepts lib push row
        · have joined : Accepts lib push (joinedApp world.db row) := accepts
          rw [answer_push_accepts joined]
          have start : Adds (joinedApp world.db row).id world after := by
            intro deployment member
            rw [same] at member
            exact Or.inr ⟨deployment, member, rfl⟩
          apply (deploy_push_adds push (joinedApp world.db row) start).mono
          intro _ final adds
          exact Or.inr ⟨row, isApp, accepts, adds⟩
        · have refuses : ¬Accepts lib push (joinedApp world.db row) := accepts
          obtain ⟨answer, isAnswer⟩ := answer_push_refuses refuses
          rw [isAnswer]
          exact always_pure.mpr (Or.inl same)
  · rw [isResult]
    exact Or.inl same

end Handling

def unusedId (id : Uuid) (world : World) : Bool :=
  world.db.deployments.all fun row => row.id ≠ id

def dependableChoice : (op : Op) → op.Choice → World → Bool
  | .query _, fault, _ | .write _, fault, _ | .sendJob _, fault, _ => Option.isNone fault
  | .external (.remoteGitToken _ _), reply, _ => Except.isOk reply
  | .newUuid, id, world => unusedId id world
  | _, _, _ => true

abbrev dependable : Machine Effects World := systemWhere dependableChoice

def Standing (id appId : Uuid) (world : World) : Prop :=
  (∃ row ∈ world.db.deployments, row.id = id ∧ row.appId = appId) ∧
    ∃ job ∈ world.queue, job.deploymentId = id

def Deployed (appId : Uuid) (before after : World) : Prop :=
  ∃ id, (∀ row ∈ before.db.deployments, row.id ≠ id) ∧ Standing id appId after

def MarksFor (appId : Uuid) : Op → Prop
  | .write (.saveDeployment deployment) => deployment.appId = appId
  | .query _ | .utcNow | .write (.appendDeploymentLog _ _) | .write (.saveServiceDeployment _) => True
  | _ => False

theorem marking_only (appId : Uuid) :
    Marking (ListsFor appId) (MarksFor appId) (·.appId = appId) appId where
  lists _ expected := expected rfl
  list := trivial
  saves _ held := held
  others op marks := by
    cases op with
    | write change =>
        cases change with
        | saveDeployment deployment => exact marks.elim
        | appendDeploymentLog id line => trivial
        | saveServiceDeployment row => trivial
        | _ => exact marks.elim
    | query wanted => trivial
    | utcNow => trivial
    | _ => exact marks.elim
  joined _ _ held := held
  stopped _ _ _ held := held

section Dependable

variable {appId id : Uuid} {before after : World}

theorem standing_step {op : Op} {answer : op.Answer} (marks : MarksFor appId op)
    (standing : Standing id appId before) (possible : Possible op before answer after) :
    Standing id appId after := by
  cases op with
  | query wanted =>
      rw [(possible_query possible).1]
      exact standing
  | utcNow =>
      obtain ⟨now, -, result⟩ := possible
      cases result
      exact standing
  | write change =>
      rcases possible_write possible with ⟨-, db, applied, same⟩ | ⟨same, -⟩
      · obtain ⟨⟨row, stored, isId, isApp⟩, queued⟩ := standing
        rw [same]
        refine ⟨?_, queued⟩
        cases change with
        | saveDeployment deployment =>
            obtain ⟨-, -, deployments, -⟩ := Database.save_deployment_shape applied
            have kept : ∃ kept ∈
                upsert (·.id) (Database.storedDeployment deployment) before.db.deployments,
                kept.id = id ∧ kept.appId = appId := by
              by_cases own : row.id = deployment.id
              · refine ⟨Database.storedDeployment deployment, mem_upsert.mpr (Or.inl rfl), ?_, marks⟩
                exact own.symm.trans isId
              · exact ⟨row, mem_upsert.mpr (Or.inr ⟨stored, own⟩), isId, isApp⟩
            rw [← deployments] at kept
            exact kept
        | saveServiceDeployment other =>
            rw [Database.save_service_deployment_shape applied]
            exact ⟨row, stored, isId, isApp⟩
        | appendDeploymentLog other line =>
            rw [Database.append_deployment_log_shape applied]
            exact ⟨row, stored, isId, isApp⟩
        | _ => exact marks.elim
      · rw [same]
        exact standing
  | _ => exact marks.elim

variable {world : World}

theorem cleanup_standing (request : DeploymentRequest) (id replacement : Uuid)
    (standing : Standing id request.app.id world) :
    (cleanupStale request replacement).Ensures dependable.can
      (fun _ after => Standing id request.app.id after) world := by
  have marked := cleanup_stale_keeps (marking_only request.app.id) replacement
  have run := @Under.always Effects _ _ _ World dependable.can (Standing id request.app.id) _ _ marked
    (fun _ _ _ _ _ can => lists_for (where_possible can))
    (fun _ _ _ _ marks before can => standing_step marks before (where_possible can)) world standing
  exact (run.mono fun _ _ both => both.2).restrict (fun _ _ _ _ possible => possible)
    fun _ _ _ => trivial

theorem dependable_query {wanted : Query} {answer : Except String wanted.Row}
    (can : dependable.can (.query wanted) before answer after) :
    answer = .ok (wanted.read before.db) ∧ after = before := by
  obtain ⟨fault, admitted, result⟩ := can
  have noFault : fault = none := Option.isNone_iff_eq_none.mp admitted.2
  subst noFault
  cases result
  exact ⟨rfl, rfl⟩

theorem dependable_write {change : Write} {db : Database} {answer : Except String Unit}
    (applied : change.apply before.db = some db)
    (can : dependable.can (.write change) before answer after) :
    answer = .ok () ∧ after = { before with db := db } := by
  obtain ⟨fault, admitted, result⟩ := can
  have noFault : fault = none := Option.isNone_iff_eq_none.mp admitted.2
  subst noFault
  have executed := (exec_write_applied applied).symm.trans result
  cases executed
  exact ⟨rfl, rfl⟩

theorem dependable_send {job : DeploymentJob} {answer : Except String Unit}
    (can : dependable.can (.sendJob job) before answer after) :
    answer = .ok () ∧ after = { before with queue := before.queue ++ [job] } := by
  obtain ⟨fault, admitted, result⟩ := can
  have noFault : fault = none := Option.isNone_iff_eq_none.mp admitted.2
  subst noFault
  cases result
  exact ⟨rfl, rfl⟩

theorem dependable_token {ownerId : Uuid} {url : String}
    {answer : Except ApiError (Option String)}
    (can : dependable.can (.external (.remoteGitToken ownerId url)) before answer after) :
    ∃ token, answer = .ok token ∧ after = before := by
  obtain ⟨reply, admitted, result⟩ := can
  cases result
  cases answer with
  | ok token => exact ⟨token, rfl, rfl⟩
  | error error => cases admitted.2

theorem dependable_uuid (can : dependable.can .newUuid before id after) :
    (∀ row ∈ before.db.deployments, row.id ≠ id) ∧ after.db = before.db := by
  obtain ⟨drawn, admitted, result⟩ := can
  cases result
  have unused := List.all_eq_true.mp admitted.2
  refine ⟨fun row member => ?_, rfl⟩
  simpa using unused row member

theorem dependable_reads {op : Op} {answer : op.Answer} (can : dependable.can op before answer after) :
    Reads False before.db op answer := by
  cases op with
  | query wanted => exact Or.inl (dependable_query can).1
  | _ => trivial

theorem save_request_applied {request : DeploymentRequest} {source : DeploymentSource} {now : Time}
    {db : Database} (present : db.hasApp request.app.id = true)
    (noRollback : request.rollbackFromDeploymentId = none) (id : Uuid) :
    ∃ saved, db.saveDeployment (request.deployment id now source) = some saved := by
  have references : db.deploymentReferencesHold (request.deployment id now source) = true := by
    unfold Database.deploymentReferencesHold DeploymentRequest.deployment
    rw [noRollback]
    simp [present, Deployment.new]
  unfold Database.saveDeployment
  rw [if_pos references]
  exact ⟨_, rfl⟩

/-- The request names its source, so its record is stored and its job is sent. -/
theorem queue_deployment_deploys {request : DeploymentRequest} {source : DeploymentSource}
    {world : World} (named : request.sourceOverride = some source)
    (present : world.db.hasApp request.app.id = true)
    (noRollback : request.rollbackFromDeploymentId = none) :
    (queueDeployment request).run.Ensures dependable.can
      (fun _ after => Deployed request.app.id world after) world := by
  have isSource : requestSource request = Pure.pure source := by
    unfold requestSource
    rw [named]
  unfold queueDeployment
  rw [isSource]
  apply always_run_bind.mpr
  apply always_run_pure.mpr
  dsimp only
  apply always_run_lift_bind.mpr
  apply always_op trivial
  intro id drawn can
  obtain ⟨unused, sameDb⟩ := dependable_uuid can
  apply always_run_lift_bind.mpr
  apply always_op trivial
  intro now timed can
  have timedDb : timed.db = world.db :=
    (possible_db (where_possible can) (by simp)).trans sameDb
  apply always_run_bind.mpr
  rw [or_internal_always]
  obtain ⟨saved, applied⟩ := @save_request_applied request source now timed.db
    (timedDb ▸ present) noRollback id
  apply always_op trivial
  intro answer stored can
  have writes : Write.apply timed.db (.saveDeployment (request.deployment id now source)) =
      some saved := applied
  obtain ⟨isAnswer, isStored⟩ := dependable_write writes can
  rw [isAnswer]
  dsimp only
  apply always_run_bind.mpr
  unfold enqueueJob
  apply always_run_lift_bind.mpr
  apply always_op trivial
  intro answer queued can
  obtain ⟨isAnswer, isQueued⟩ := dependable_send can
  rw [isAnswer]
  apply always_run_pure.mpr
  dsimp only
  apply always_run_lift_bind.mpr
  have standing : Standing id request.app.id queued := by
    rw [isQueued, isStored]
    constructor
    · obtain ⟨-, -, deployments, -⟩ := Database.save_deployment_shape applied
      refine ⟨Database.storedDeployment (request.deployment id now source), ?_, rfl, rfl⟩
      dsimp only
      rw [deployments]
      exact mem_upsert.mpr (Or.inl rfl)
    · exact ⟨request.job id source, by simp, rfl⟩
  apply (cleanup_standing request id id standing).mono
  intro _ final kept
  exact always_run_pure.mpr ⟨id, unused, kept⟩

variable {app : App} {push : PushEvent}

theorem deploy_push_deploys (present : world.db.hasApp app.id = true) :
    (deployPush push app).run.Ensures dependable.can
      (fun _ after => Deployed app.id world after) world := by
  unfold deployPush resolveRemoteDeploymentSource
  apply always_run_bind.mpr
  apply always_run_bind.mpr
  apply always_op trivial
  intro answer after can
  obtain ⟨token, isAnswer, same⟩ := dependable_token can
  rw [isAnswer, same]
  apply always_run_pure.mpr
  dsimp only
  apply always_run_bind.mpr
  have queued := @queue_deployment_deploys (pushRequest push app (.remoteGit app.githubUrl token))
    (.remoteGit app.githubUrl token) world rfl present rfl
  apply queued.mono
  intro result final deployed
  cases result with
  | ok deployment => exact always_run_pure.mpr deployed
  | error error => exact deployed

theorem deployed_same {appId : Uuid} {start after : World} (same : world.db = start.db)
    (deployed : Deployed appId world after) : Deployed appId start after := by
  obtain ⟨id, unused, standing⟩ := deployed
  rw [same] at unused
  exact ⟨id, unused, standing⟩

theorem branch_app_mem {db : Database} {branch : String}
    (found : branchApp db push branch = some app) :
    app ∈ db.apps ∧ onBranch push.repository.htmlUrl branch app = true := by
  have listed := List.mem_of_find?_eq_some found
  unfold Database.appRows at listed
  rw [List.mem_insertionSort] at listed
  exact ⟨listed, List.find?_some found⟩

theorem handle_push_deploys {lib : Libraries} {branch : String}
    (found : branchApp world.db push branch = some app) (accepts : Accepts lib push app) :
    (handlePush lib push branch).run.Ensures dependable.can
      (fun _ after => Deployed app.id world after) world := by
  unfold handlePush
  apply always_run_bind.mpr
  have looked := @lookup_always False dependable.can world (fun _ _ _ _ can => dependable_reads can)
    (fun _ _ _ _ reading can => reading_keeps_db reading (where_possible can)) push branch
  apply looked.mono
  intro result after facts
  obtain ⟨same, got⟩ := facts
  rcases got with isResult | ⟨impossible, -⟩
  · rw [isResult, found]
    dsimp only [Option.map_some]
    have joined : Accepts lib push (joinedApp world.db app) := accepts
    rw [answer_push_accepts joined]
    have present : after.db.hasApp (joinedApp world.db app).id = true := by
      rw [same]
      exact List.any_eq_true.mpr ⟨app, (branch_app_mem found).1, decide_eq_true rfl⟩
    apply (deploy_push_deploys present).mono
    intro _ final deployed
    exact deployed_same same deployed
  · exact impossible.elim

end Dependable

end Containr.Api.Webhooks
