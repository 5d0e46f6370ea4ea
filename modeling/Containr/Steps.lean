import Containr.System

/-!
# What one call does to the world

Each lemma inverts one kind of call: its answer, and what may differ afterwards.
-/

namespace Containr

open Containr.Effect

variable {before : World} {op : Op} {answer : op.Answer} {after : World}

/-- Fewer choices, fewer behaviours. -/
theorem where_possible {check : (op : Op) → op.Choice → World → Bool}
    (can : (systemWhere check).can op before answer after) : Possible op before answer after := by
  obtain ⟨choice, admitted, result⟩ := can
  exact ⟨choice, admitted.1, result⟩

theorem possible_query {wanted : Query} {answer : Except String wanted.Row}
    (possible : Possible (Op.query wanted) before answer after) : after = before ∧
      (answer = .ok (wanted.read before.db) ∨ ∃ message, answer = .error message) := by
  obtain ⟨fault, -, result⟩ := possible
  cases fault with
  | none =>
      cases result
      exact ⟨rfl, Or.inl rfl⟩
  | some message =>
      cases result
      exact ⟨rfl, Or.inr ⟨message, rfl⟩⟩

variable {change : Write}

/-- A write without a fault is applied, unless a constraint forbids it. -/
theorem exec_write_applied {world : World} {db : Database}
    (applied : change.apply world.db = some db) :
    Op.exec (.write change) none world = (.ok (), { world with db := db }) := by
  unfold Op.exec
  dsimp only
  rw [applied]

theorem exec_write_refused {world : World} (refused : change.apply world.db = none) :
    Op.exec (.write change) none world = (.error "constraint failed", world) := by
  unfold Op.exec
  dsimp only
  rw [refused]

theorem possible_write {answer : Except String Unit}
    (possible : Possible (Op.write change) before answer after) :
    (answer = .ok () ∧ ∃ db, change.apply before.db = some db ∧ after = { before with db := db }) ∨
      (after = before ∧ ∃ message, answer = .error message) := by
  obtain ⟨fault, -, result⟩ := possible
  cases fault with
  | some message =>
      cases result
      exact Or.inr ⟨rfl, message, rfl⟩
  | none =>
      cases applied : change.apply before.db with
      | none =>
          have executed := (exec_write_refused applied).symm.trans result
          cases executed
          exact Or.inr ⟨rfl, _, rfl⟩
      | some db =>
          have executed := (exec_write_applied applied).symm.trans result
          cases executed
          exact Or.inl ⟨rfl, db, rfl, rfl⟩

theorem possible_docker {request : DockerCall} {answer : Except String request.Reply}
    (possible : Possible (Op.docker request) before answer after) :
    request.serve before = (answer, after) ∨ after = before ∧ ∃ message, answer = .error message := by
  obtain ⟨fault, -, result⟩ := possible
  cases fault with
  | some message =>
      cases result
      exact Or.inr ⟨rfl, message, rfl⟩
  | none => exact Or.inl result

namespace World

theorem create_container_cases (world : World) (name : String) (body : ContainerBody) :
    (world.hasContainer name = true ∧ ∃ message,
        world.createContainer name body = (.error message, world)) ∨
      (world.hasContainer name = false ∧ world.createContainer name body =
        (.ok world.nextSerial, { world with
          containers := world.containers ++ [⟨world.nextSerial, name, body, false⟩]
          nextSerial := world.nextSerial + 1 })) := by
  unfold createContainer
  by_cases inUse : world.hasContainer name = true
  · rw [if_pos inUse]
    exact Or.inl ⟨inUse, _, rfl⟩
  · rw [if_neg inUse]
    exact Or.inr ⟨by simpa using inUse, rfl⟩

theorem switch_container_cases (world : World) (selected : Container → Bool) (value : Bool) :
    (∃ message, world.switchContainer selected value = (.error message, world)) ∨
      world.switchContainer selected value =
        (.ok (), { world with containers := setRunning selected value world.containers }) := by
  unfold switchContainer
  by_cases present : world.containers.any selected = true
  · rw [if_pos present]
    exact Or.inr rfl
  · rw [if_neg present]
    exact Or.inl ⟨_, rfl⟩

theorem remove_container_cases (world : World) (name : String) :
    (world.hasContainer name = false ∧
        ∃ message, world.removeContainer name = (.error message, world)) ∨
      (world.hasContainer name = true ∧ world.removeContainer name =
        (.ok (), { world with containers := world.containers.filter (·.name ≠ name) })) := by
  unfold removeContainer
  by_cases present : world.hasContainer name = true
  · rw [if_pos present]
    exact Or.inr ⟨present, rfl⟩
  · rw [if_neg present]
    exact Or.inl ⟨by simpa using present, _, rfl⟩

end World

section Requests

variable {name : String} {before after : World}

theorem possible_create {body : ContainerBody} {answer : Except String Nat}
    (possible : Possible (Op.docker (.createContainer name body)) before answer after) :
    (after = before ∧ ∃ message, answer = .error message) ∨
      (before.hasContainer name = false ∧ answer = .ok before.nextSerial ∧ after = { before with
        containers := before.containers ++ [⟨before.nextSerial, name, body, false⟩]
        nextSerial := before.nextSerial + 1 }) := by
  rcases possible_docker possible with served | failed
  · have same : before.createContainer name body = (answer, after) := served
    rcases before.create_container_cases name body with ⟨-, message, inUse⟩ | ⟨unused, created⟩
    · rw [inUse] at same
      cases same
      exact Or.inl ⟨rfl, message, rfl⟩
    · rw [created] at same
      cases same
      exact Or.inr ⟨unused, rfl, rfl⟩
  · exact Or.inl failed

variable {answer : Except String Unit}

theorem possible_start {serial : Nat}
    (possible : Possible (Op.docker (.startContainer serial)) before answer after) :
    (after = before ∧ ∃ message, answer = .error message) ∨
      (answer = .ok () ∧ after = { before with
        containers := setRunning (·.serial = serial) true before.containers }) := by
  rcases possible_docker possible with served | failed
  · have same : before.switchContainer (·.serial = serial) true = (answer, after) := served
    rcases before.switch_container_cases (·.serial = serial) true with ⟨message, absent⟩ | started
    · rw [absent] at same
      cases same
      exact Or.inl ⟨rfl, message, rfl⟩
    · rw [started] at same
      cases same
      exact Or.inr ⟨rfl, rfl⟩
  · exact Or.inl failed

theorem possible_stop (possible : Possible (Op.docker (.stopContainer name)) before answer after) :
    after = before ∨ after = { before with
      containers := setRunning (·.name = name) false before.containers } := by
  rcases possible_docker possible with served | ⟨same, -⟩
  · have same : before.switchContainer (·.name = name) false = (answer, after) := served
    rcases before.switch_container_cases (·.name = name) false with ⟨message, absent⟩ | stopped
    · rw [absent] at same
      cases same
      exact Or.inl rfl
    · rw [stopped] at same
      cases same
      exact Or.inr rfl
  · exact Or.inl same

theorem possible_remove
    (possible : Possible (Op.docker (.removeContainer name)) before answer after) :
    after = before ∨ after = { before with
      containers := before.containers.filter (·.name ≠ name) } := by
  rcases possible_docker possible with served | ⟨same, -⟩
  · have same : before.removeContainer name = (answer, after) := served
    rcases before.remove_container_cases name with ⟨-, message, absent⟩ | ⟨-, removed⟩
    · rw [absent] at same
      cases same
      exact Or.inl rfl
    · rw [removed] at same
      cases same
      exact Or.inr rfl
  · exact Or.inl same

end Requests

theorem DockerCall.serve_frame (world : World) (request : DockerCall) :
    ∃ containers serial, (request.serve world).2 =
      { world with containers := containers, nextSerial := serial } := by
  cases request with
  | createContainer name body =>
      rcases world.create_container_cases name body with ⟨-, message, same⟩ | ⟨-, created⟩
      · exact ⟨_, _, congrArg Prod.snd same⟩
      · exact ⟨_, _, congrArg Prod.snd created⟩
  | startContainer serial =>
      rcases world.switch_container_cases (·.serial = serial) true with ⟨message, same⟩ | started
      · exact ⟨_, _, congrArg Prod.snd same⟩
      · exact ⟨_, _, congrArg Prod.snd started⟩
  | stopContainer name =>
      rcases world.switch_container_cases (·.name = name) false with ⟨message, same⟩ | stopped
      · exact ⟨_, _, congrArg Prod.snd same⟩
      · exact ⟨_, _, congrArg Prod.snd stopped⟩
  | removeContainer name =>
      rcases world.remove_container_cases name with ⟨-, message, same⟩ | ⟨-, removed⟩
      · exact ⟨_, _, congrArg Prod.snd same⟩
      · exact ⟨_, _, congrArg Prod.snd removed⟩
  | inspectContainer name => exact ⟨_, _, rfl⟩
  | listContainers => exact ⟨_, _, rfl⟩

variable {id : Uuid}

theorem possible_uuid (possible : Possible Op.newUuid before id after) :
    id ∉ before.issued ∧ after = { before with issued := id :: before.issued } := by
  obtain ⟨drawn, new, result⟩ := possible
  cases result
  exact ⟨new, rfl⟩

theorem possible_load {flag : Flag} {answer : Bool}
    (possible : Possible (Op.loadFlag flag) before answer after) :
    answer = before.flag flag ∧ after = before := by
  obtain ⟨choice, -, result⟩ := possible
  cases result
  exact ⟨rfl, rfl⟩

theorem possible_store {flag : Flag} {value : Bool} {answer : Unit}
    (possible : Possible (Op.storeFlag flag value) before answer after) :
    after = before.setFlag flag value := by
  obtain ⟨choice, -, result⟩ := possible
  cases result
  rfl

/-- What a call of another kind leaves as it is. -/
structure Untouched (op : Op) (before after : World) : Prop where
  db : (∀ change, op ≠ .write change) → after.db = before.db
  containers : (∀ request, op ≠ .docker request) →
    after.containers = before.containers ∧ after.nextSerial = before.nextSerial
  issued : op ≠ .newUuid → after.issued = before.issued
  paused : (∀ value, op ≠ .storeFlag .paused value) → after.paused = before.paused
  running : (∀ value, op ≠ .storeFlag .running value) → after.running = before.running

theorem untouched_rfl (op : Op) (world : World) : Untouched op world world :=
  ⟨fun _ => rfl, fun _ => ⟨rfl, rfl⟩, fun _ => rfl, fun _ => rfl, fun _ => rfl⟩

theorem possible_untouched (possible : Possible op before answer after) :
    Untouched op before after := by
  cases op with
  | query wanted =>
      rw [(possible_query possible).1]
      exact untouched_rfl _ _
  | write change =>
      rcases possible_write possible with ⟨-, db, -, rfl⟩ | ⟨rfl, -⟩
      · exact ⟨fun other => absurd rfl (other change), fun _ => ⟨rfl, rfl⟩, fun _ => rfl, fun _ => rfl,
          fun _ => rfl⟩
      · exact untouched_rfl _ _
  | docker request =>
      rcases possible_docker possible with served | ⟨rfl, -⟩
      · obtain ⟨containers, serial, same⟩ := request.serve_frame before
        rw [served] at same
        rw [show after = _ from same]
        exact ⟨fun _ => rfl, fun other => absurd rfl (other request), fun _ => rfl, fun _ => rfl,
          fun _ => rfl⟩
      · exact untouched_rfl _ _
  | newUuid =>
      rw [(possible_uuid possible).2]
      exact ⟨fun _ => rfl, fun _ => ⟨rfl, rfl⟩, fun other => absurd rfl other, fun _ => rfl,
        fun _ => rfl⟩
  | external action =>
      obtain ⟨reply, -, result⟩ := possible
      cases result
      exact untouched_rfl _ _
  | utcNow =>
      obtain ⟨now, -, result⟩ := possible
      cases result
      exact untouched_rfl _ _
  | iterationOrder keys =>
      obtain ⟨order, -, result⟩ := possible
      cases result
      exact untouched_rfl _ _
  | hashOrder count =>
      obtain ⟨order, -, result⟩ := possible
      cases result
      exact untouched_rfl _ _
  | sendJob job =>
      obtain ⟨fault, -, result⟩ := possible
      cases fault with
      | none =>
          cases result
          exact ⟨fun _ => rfl, fun _ => ⟨rfl, rfl⟩, fun _ => rfl, fun _ => rfl,
            fun _ => rfl⟩
      | some message =>
          cases result
          exact untouched_rfl _ _
  | receiveJob =>
      obtain ⟨choice, -, result⟩ := possible
      change Op.exec .receiveJob choice before = (answer, after) at result
      unfold Op.exec at result
      dsimp only at result
      cases queued : before.queue with
      | nil =>
          rw [queued] at result
          cases result
          exact untouched_rfl _ _
      | cons job queue =>
          rw [queued] at result
          cases result
          exact ⟨fun _ => rfl, fun _ => ⟨rfl, rfl⟩, fun _ => rfl, fun _ => rfl,
            fun _ => rfl⟩
  | loadFlag flag =>
      obtain ⟨choice, -, result⟩ := possible
      cases result
      exact untouched_rfl _ _
  | storeFlag flag value =>
      obtain ⟨choice, -, result⟩ := possible
      cases result
      cases flag with
      | paused =>
          exact ⟨fun _ => rfl, fun _ => ⟨rfl, rfl⟩, fun _ => rfl, fun other => absurd rfl (other value),
            fun _ => rfl⟩
      | running =>
          exact ⟨fun _ => rfl, fun _ => ⟨rfl, rfl⟩, fun _ => rfl, fun _ => rfl,
            fun other => absurd rfl (other value)⟩

theorem possible_db (possible : Possible op before answer after)
    (notWrite : ∀ change, op ≠ .write change) : after.db = before.db :=
  (possible_untouched possible).db notWrite

/-- Only a write that is carried out changes the database. -/
theorem possible_written (possible : Possible op before answer after) :
    after.db = before.db ∨ ∃ change db, op = .write change ∧ change.apply before.db = some db ∧
      after = { before with db := db } := by
  by_cases isWrite : ∃ change, op = .write change
  · obtain ⟨change, rfl⟩ := isWrite
    rcases possible_write possible with ⟨-, db, applied, shape⟩ | ⟨same, -⟩
    · exact Or.inr ⟨change, db, rfl, applied, shape⟩
    · exact Or.inl (congrArg World.db same)
  · exact Or.inl (possible_db possible fun change same => isWrite ⟨change, same⟩)

theorem possible_issued (possible : Possible op before answer after) :
    before.issued ⊆ after.issued := by
  intro id member
  by_cases draws : op = .newUuid
  · subst draws
    rw [(possible_uuid possible).2]
    exact List.mem_cons_of_mem _ member
  · rw [(possible_untouched possible).issued draws]
    exact member

theorem set_running_names (selected : Container → Bool) (value : Bool)
    (containers : List Container) (name : String) :
    (setRunning selected value containers).any (·.name = name) =
      containers.any (·.name = name) := by
  induction containers with
  | nil => rfl
  | cons container rest ih =>
      unfold setRunning at ih ⊢
      rw [List.map_cons, List.any_cons, List.any_cons, ih]
      split
      · rfl
      · rfl

/-- Only its creation and its removal decide whether a container exists. -/
theorem possible_has_container (name : String) (possible : Possible op before answer after) :
    after.hasContainer name = before.hasContainer name ∨
      (∃ body, op = .docker (.createContainer name body) ∧ after.hasContainer name = true) ∨
      (op = .docker (.removeContainer name) ∧ after.hasContainer name = false) := by
  by_cases isDocker : ∃ request, op = .docker request
  · obtain ⟨request, rfl⟩ := isDocker
    cases request with
    | createContainer created body =>
        rcases possible_create possible with ⟨rfl, -⟩ | ⟨-, -, rfl⟩
        · exact Or.inl rfl
        · by_cases same : created = name
          · subst same
            exact Or.inr (Or.inl ⟨body, rfl, by simp [World.hasContainer]⟩)
          · exact Or.inl (by simp [World.hasContainer, same])
    | startContainer serial =>
        rcases possible_start possible with ⟨rfl, -⟩ | ⟨-, rfl⟩
        · exact Or.inl rfl
        · exact Or.inl (set_running_names _ _ _ _)
    | stopContainer stopped =>
        rcases possible_stop possible with rfl | rfl
        · exact Or.inl rfl
        · exact Or.inl (set_running_names _ _ _ _)
    | removeContainer removed =>
        rcases possible_remove possible with rfl | rfl
        · exact Or.inl rfl
        · by_cases same : removed = name
          · subst same
            exact Or.inr (Or.inr ⟨rfl, by simp [World.hasContainer]⟩)
          · left
            unfold World.hasContainer
            rw [List.any_filter]
            apply congrArg before.containers.any
            funext container
            by_cases named : container.name = name
            · simp [named, Ne.symm same]
            · simp [named]
    | inspectContainer inspected =>
        rcases possible_docker possible with served | ⟨rfl, -⟩
        · cases served
          exact Or.inl rfl
        · exact Or.inl rfl
    | listContainers =>
        rcases possible_docker possible with served | ⟨rfl, -⟩
        · cases served
          exact Or.inl rfl
        · exact Or.inl rfl
  · have same := (possible_untouched possible).containers fun request isIt =>
      isDocker ⟨request, isIt⟩
    left
    unfold World.hasContainer
    rw [same.1]

def Write.KeepsStatus (id : Uuid) : Write → Prop
  | .saveDeployment deployment => deployment.id ≠ id
  | .deleteDeployment other => other ≠ id
  | .deleteApp _ => False
  | .saveApp _ | .saveServiceDeployment _ | .appendDeploymentLog _ _ => True

def Op.KeepsStatus (id : Uuid) : Op → Prop
  | .write change => change.KeepsStatus id
  | _ => True

theorem status_kept_by_write {db after : Database} (keeps : change.KeepsStatus id)
    (applied : change.apply db = some after) : after.statusOf id = db.statusOf id := by
  cases change with
  | saveApp app => rw [Database.statusOf, Database.statusOf, Database.save_app_rows applied]
  | deleteApp other => exact keeps.elim
  | saveDeployment deployment =>
      rw [Database.statusOf, Database.save_deployment_row_other applied (Ne.symm keeps)]
      rfl
  | deleteDeployment other =>
      cases applied
      exact Database.delete_deployment_status_other db (Ne.symm keeps)
  | saveServiceDeployment row =>
      rw [Database.save_service_deployment_shape applied]
      rfl
  | appendDeploymentLog other line =>
      rw [Database.append_deployment_log_shape applied]
      rfl

theorem status_kept (keeps : op.KeepsStatus id) (possible : Possible op before answer after) :
    after.db.statusOf id = before.db.statusOf id := by
  rcases possible_written possible with same | ⟨change, db, rfl, applied, rfl⟩
  · rw [same]
  · exact status_kept_by_write keeps applied

end Containr
