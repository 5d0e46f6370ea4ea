import Containr.Managed.Databases

/-!
# A deleted database

A deletion reads the record, has the container the record names removed and deletes the
row. Others save the whole record before and after a long start. A deletion that meets the
running container in the record, with nothing of the database started once it has begun
and nothing saved once the row is deleted, leaves neither record nor running container.
-/

namespace Containr.Managed.Databases

open Containr.Effect
open Containr.Effect.Program

section Rules

variable {State Value : Type} {can : Behaviour DatabaseEffects State}
  {ok : State → DatabaseOp → Prop} {state : State}

theorem database_op_always {op : DatabaseOp} {post : op.Answer → State → Prop} :
    op.call.Always can ok post state ↔ ok state op ∧ ∀ answer after,
      can op state answer after → post answer after := by
  unfold DatabaseOp.call
  exact @always_perform DatabaseEffects State can ok op post state

theorem or_internal_always {program : Prog (Except String Value)}
    {post : Except ApiError Value → State → Prop} :
    (orInternal program).run.Always can ok post state ↔
      program.Always can ok (fun result after => match result with
        | .ok value => post (.ok value) after
        | .error _ => post (.error internalError) after) state := by
  unfold orInternal
  rw [always_run_map]
  apply always_congr
  intro result after
  cases result with
  | ok value => exact Iff.rfl
  | error message => exact Iff.rfl

theorem ignore_always {program : Prog Value} {post : Unit → State → Prop} :
    (ignore program).Always can ok post state ↔
      program.Always can ok (fun _ after => post () after) state := by
  unfold ignore
  exact always_dropped program post state

end Rules

section Deletion

variable {Thread : Type} {deletion : Thread} {id : Uuid}
  {before : List (Event DatabaseEffects Thread)}

/-- The store finds what it is asked for, and the daemon removes what it is asked to. -/
def Obliges : (op : DatabaseOp) → op.Answer → Prop
  | .getManagedDatabase id, answer => ∀ db : ManagedDatabase, answer = .ok (some db) → db.id = id
  | .removeContainerIfExists _, answer => Succeeds answer
  | _, _ => True

abbrev Among (deletion : Thread) : Behaviour DatabaseEffects (List (Event DatabaseEffects Thread)) :=
  Amid deletion fun _ => Obliges

theorem among_grows {Value : Type} (program : Prog Value) :
    program.Ensures (Among deletion) (fun _ after => before ⊆ after) before := by
  have grows := @always_of_step DatabaseEffects Value _ (Among deletion) (before ⊆ ·) program
    (by
      rintro op earlier answer after included ⟨others, -, split, -⟩
      intro event member
      rw [split]
      simp [included member])
    before (List.Subset.refl before)
  exact grows.restrict (fun _ _ _ _ possible => possible) fun _ _ _ => trivial

theorem among_call (op : DatabaseOp) :
    op.call.Ensures (Among deletion) (fun answer after => before ⊆ after ∧
      ⟨deletion, op, answer⟩ ∈ after ∧ Obliges op answer) before := by
  apply database_op_always.mpr
  refine ⟨trivial, ?_⟩
  rintro answer after ⟨others, -, split, obliges⟩
  refine ⟨?_, ?_, obliges⟩
  · rw [split]
    intro event member
    simp [member]
  · rw [split]
    simp

theorem resolve_among (userId : Uuid) :
    (resolveOwnedDatabase userId id).run.Ensures (Among deletion) (fun result after =>
      OnOk (fun db => db.id = id ∧
        (⟨deletion, .getManagedDatabase id, Except.ok (some db)⟩ :
          Event DatabaseEffects Thread) ∈ after) result) before := by
  apply always_run_bind.mpr
  apply or_internal_always.mpr
  apply (among_call _).mono
  rintro answer after ⟨-, made, obliges⟩
  cases answer with
  | error message => trivial
  | ok found =>
      cases found with
      | none => exact always_run_throw.mpr trivial
      | some db =>
          dsimp only
          by_cases own : db.ownerId = userId
          · rw [if_pos own]
            exact always_run_pure.mpr ⟨obliges db rfl, made⟩
          · rw [if_neg own]
            exact always_run_throw.mpr trivial

theorem stop_own_container_among (db : ManagedDatabase) :
    (stopOwnContainer db).Ensures (Among deletion) (fun _ after => before ⊆ after ∧
      ∀ serial, db.containerId = some serial → ∃ answer,
        (⟨deletion, .removeContainer serial, answer⟩ : Event DatabaseEffects Thread) ∈ after)
      before := by
  unfold stopOwnContainer
  cases db.containerId with
  | none =>
      refine always_pure.mpr ⟨List.Subset.refl before, fun serial named => ?_⟩
      cases named
  | some serial =>
      apply (among_call _).bind
      rintro _ middle ⟨first, -, -⟩
      apply (among_call _).bind
      rintro answer after ⟨second, made, -⟩
      apply always_pure.mpr
      refine ⟨fun event member => second (first member), fun other named => ?_⟩
      cases named
      exact ⟨answer, made⟩

theorem stop_database_among (db : ManagedDatabase) :
    (stopDatabase db).Ensures (Among deletion) (fun _ after => before ⊆ after ∧
      (∃ answer, (⟨deletion, .removeContainerIfExists (proxyContainerName db.id), answer⟩ :
        Event DatabaseEffects Thread) ∈ after) ∧
      ∀ serial, db.containerId = some serial → ∃ answer,
        (⟨deletion, .removeContainer serial, answer⟩ : Event DatabaseEffects Thread) ∈ after)
      before := by
  unfold stopDatabase
  apply (among_call _).bind
  rintro answer middle ⟨first, proxy, obliges⟩
  cases answer with
  | error message => exact obliges.elim
  | ok _ =>
      apply (stop_own_container_among db).bind
      rintro _ after ⟨second, removed⟩
      have reached : before ⊆ after ∧
          (∃ answer, (⟨deletion, .removeContainerIfExists (proxyContainerName db.id), answer⟩ :
            Event DatabaseEffects Thread) ∈ after) ∧
          ∀ serial, db.containerId = some serial → ∃ answer,
            (⟨deletion, .removeContainer serial, answer⟩ : Event DatabaseEffects Thread) ∈ after :=
        ⟨fun event member => second (first member), ⟨_, second proxy⟩, removed⟩
      dsimp only
      split_ifs
      · apply (among_grows _).bind
        intro _ last third
        apply always_pure.mpr
        obtain ⟨grown, ⟨answer, made⟩, removed⟩ := reached
        refine ⟨fun event member => third (grown member), ⟨answer, third made⟩, ?_⟩
        intro serial named
        obtain ⟨answer, made⟩ := removed serial named
        exact ⟨answer, third made⟩
      · exact always_pure.mpr reached

structure Completed (deletion : Thread) (id : Uuid)
    (history : List (Event DatabaseEffects Thread)) : Prop where
  stopped : ∃ db : ManagedDatabase,
    (⟨deletion, .getManagedDatabase id, Except.ok (some db)⟩ : Event DatabaseEffects Thread) ∈
      history ∧
    (∃ answer, (⟨deletion, .removeContainerIfExists (proxyContainerName id), answer⟩ :
      Event DatabaseEffects Thread) ∈ history) ∧
    ∀ serial, db.containerId = some serial → ∃ answer,
      (⟨deletion, .removeContainer serial, answer⟩ : Event DatabaseEffects Thread) ∈ history
  deleted : ∃ found : Bool, (⟨deletion, .deleteManagedDatabase id, Except.ok found⟩ :
    Event DatabaseEffects Thread) ∈ history

theorem delete_database_among (dataDir : String) (userId : Uuid) :
    (deleteDatabase dataDir userId id).run.Ensures (Among deletion) (fun result after =>
      OnOk (fun _ => Completed deletion id after) result) before := by
  apply (resolve_among userId).run_bind
  intro result first known
  cases result with
  | error error => trivial
  | ok db =>
  obtain ⟨rfl, found⟩ := known
  apply always_run_lift_bind.mpr
  apply ignore_always.mpr
  apply (stop_database_among db).mono
  rintro _ second ⟨grown, ⟨answer, proxy⟩, removed⟩
  apply (among_grows _).run_lift_bind
  intro _ third grownToo
  apply always_run_bind.mpr
  apply or_internal_always.mpr
  apply (among_call _).mono
  rintro reply last ⟨grownLast, made, -⟩
  cases reply with
  | error message => trivial
  | ok deleted =>
      apply always_run_pure.mpr
      have later : ∀ event ∈ second, event ∈ last := fun event member => grownLast (grownToo member)
      constructor
      · refine ⟨db, later _ (grown found), ⟨answer, later _ proxy⟩, fun serial named => ?_⟩
        obtain ⟨answer, stopped⟩ := removed serial named
        exact ⟨answer, later _ stopped⟩
      · exact ⟨deleted, made⟩

end Deletion

section Interleavings

variable {Thread : Type} {deletion : Thread} {id : Uuid}

def DatabaseContainer.belongsTo (container : DatabaseContainer) (id : Uuid) : Prop :=
  container.name = databaseContainerName id ∨ container.name = proxyContainerName id

structure Gone (id : Uuid) (fleet : Fleet) : Prop where
  record : ∀ db ∈ fleet.databases, db.id ≠ id
  container : ∀ container ∈ fleet.containers, container.belongsTo id → container.running = false

def Removes (fleet : Fleet) : (op : DatabaseOp) → op.Answer → Prop
  | .removeContainerIfExists _, answer => Succeeds answer
  | .removeContainer serial, answer => fleet.isThere serial = true → Succeeds answer
  | _, _ => True

/-- The deletion finds the running container in the record; no container of the database is
started once it has begun, and no record saved once it has deleted the row. -/
structure Undisturbed (deletion : Thread) (id : Uuid)
    (history : List (Event DatabaseEffects Thread))
    (pool : Pool DatabaseEffects Thread (Except ApiError Unit) Fleet)
    (event : Event DatabaseEffects Thread) : Prop where
  named : ∀ db : ManagedDatabase,
    event = ⟨deletion, .getManagedDatabase id, Except.ok (some db)⟩ →
      ∀ container ∈ pool.state.containers, container.name = databaseContainerName id →
        container.running = true → db.containerId = some container.serial
  started : ∀ serial, event.op = .startContainer serial →
    (∃ past ∈ history, past.thread = deletion) →
      ∀ container ∈ pool.state.containers, container.serial = serial → ¬container.belongsTo id
  saved : ∀ db, event.op = .saveManagedDatabase db →
    (∃ found : Bool, (⟨deletion, .deleteManagedDatabase id, Except.ok found⟩ :
      Event DatabaseEffects Thread) ∈ history) → db.id ≠ id
  removed : event.thread = deletion → Removes pool.state event.op event.answer

variable [DecidableEq Thread]

def databaseRequests (dataDir : String) (requests : Thread → Request) (fleet : Fleet) :
    Pool DatabaseEffects Thread (Except ApiError Unit) Fleet :=
  ⟨fun thread => handle dataDir (requests thread), fleet⟩

/-- What a call that goes through makes of the fleet. -/
def Changes : DatabaseOp → Fleet → Fleet → Prop
  | .saveManagedDatabase db, before, after => after = before.save db
  | .deleteManagedDatabase id, before, after => after = before.delete id
  | .createContainer name, before, after => after = (before.create name).2
  | .removeContainerIfExists name, before, after => after = before.keep (·.name ≠ name)
  | .startContainer serial, before, after => after = before.switch serial true
  | .stopContainer serial, before, after => after = before.switch serial false
  | .removeContainer serial, before, after => after = before.keep (·.serial ≠ serial)
  | _, _, _ => False

theorem attempt_state {Reply : Type} (fleet : Fleet) (fault : Option String)
    (served : Except String Reply × Fleet) :
    (fleet.attempt fault served).2 = fleet ∨ (fleet.attempt fault served).2 = served.2 := by
  cases fault with
  | some message => exact Or.inl rfl
  | none => exact Or.inr rfl

theorem with_container_state (fleet : Fleet) (serial : Nat) (after : Fleet) :
    (fleet.withContainer serial after).2 = fleet ∨
      (fleet.withContainer serial after).2 = after := by
  unfold Fleet.withContainer
  split_ifs
  · exact Or.inr rfl
  · exact Or.inl rfl

theorem attempt_container (fleet : Fleet) (fault : Option String) (serial : Nat) (after : Fleet) :
    (fleet.attempt fault (fleet.withContainer serial after)).2 = fleet ∨
      (fleet.attempt fault (fleet.withContainer serial after)).2 = after := by
  rcases attempt_state fleet fault (fleet.withContainer serial after) with same | served
  · exact Or.inl same
  · rw [served]
    exact with_container_state fleet serial after

variable {fleet : Fleet} {op : DatabaseOp} {answer : op.Answer}

theorem fleet_step {after : Fleet} (possible : databaseSystem.can op fleet answer after) :
    after = fleet ∨ Changes op fleet after := by
  obtain ⟨choice, -, result⟩ := possible
  have same : (op.exec choice fleet).2 = after := congrArg Prod.snd result
  rw [← same]
  cases op with
  | getManagedDatabase wanted =>
      rcases attempt_state fleet choice (.ok (lookup (·.id) wanted fleet.databases), fleet) with
        same | same
      · exact Or.inl same
      · exact Or.inl same
  | saveManagedDatabase db => exact attempt_state fleet choice _
  | deleteManagedDatabase id => exact attempt_state fleet choice _
  | createContainer name => exact attempt_state fleet choice _
  | removeContainerIfExists name => exact attempt_state fleet choice _
  | startContainer serial => exact attempt_container fleet choice serial _
  | stopContainer serial => exact attempt_container fleet choice serial _
  | removeContainer serial => exact attempt_container fleet choice serial _
  | _ => exact Or.inl rfl

variable {serial : Nat} {container : DatabaseContainer}

theorem mem_switch {running : Bool} (member : container ∈ (fleet.switch serial running).containers) :
    ∃ old ∈ fleet.containers, old.serial = container.serial ∧ old.name = container.name ∧
      (old.serial = serial ∧ container.running = running ∨ old.running = container.running) := by
  obtain ⟨old, inFleet, rfl⟩ := List.mem_map.mp member
  refine ⟨old, inFleet, ?_⟩
  split_ifs with isIt
  · exact ⟨rfl, rfl, Or.inl ⟨isIt, rfl⟩⟩
  · exact ⟨rfl, rfl, Or.inr rfl⟩

/-- A running container was running before, or is the one that is started. -/
theorem running_before {after : Fleet} (possible : databaseSystem.can op fleet answer after)
    (member : container ∈ after.containers) (running : container.running = true) :
    ∃ old ∈ fleet.containers, old.serial = container.serial ∧ old.name = container.name ∧
      (old.running = true ∨ op = .startContainer container.serial) := by
  have stays : container ∈ fleet.containers → ∃ old ∈ fleet.containers,
      old.serial = container.serial ∧ old.name = container.name ∧
      (old.running = true ∨ op = .startContainer container.serial) :=
    fun inFleet => ⟨container, inFleet, rfl, rfl, Or.inl running⟩
  rcases fleet_step possible with same | changed
  · rw [same] at member
    exact stays member
  · cases op with
    | saveManagedDatabase db =>
        rw [show after = fleet.save db from changed] at member
        exact stays member
    | deleteManagedDatabase id =>
        rw [show after = fleet.delete id from changed] at member
        exact stays member
    | createContainer name =>
        rw [show after = (fleet.create name).2 from changed] at member
        unfold Fleet.create at member
        split_ifs at member
        · exact stays member
        · rcases List.mem_append.mp member with old | new
          · exact stays old
          · rw [List.mem_singleton.mp new] at running
            cases running
    | removeContainerIfExists name =>
        rw [show after = fleet.keep (·.name ≠ name) from changed] at member
        exact stays (List.mem_filter.mp member).1
    | startContainer serial =>
        rw [show after = fleet.switch serial true from changed] at member
        obtain ⟨old, inFleet, sameSerial, sameName, how⟩ := mem_switch member
        refine ⟨old, inFleet, sameSerial, sameName, ?_⟩
        rcases how with ⟨isIt, -⟩ | was
        · rw [← sameSerial, isIt]
          exact Or.inr rfl
        · rw [was]
          exact Or.inl running
    | stopContainer serial =>
        rw [show after = fleet.switch serial false from changed] at member
        obtain ⟨old, inFleet, sameSerial, sameName, how⟩ := mem_switch member
        refine ⟨old, inFleet, sameSerial, sameName, ?_⟩
        rcases how with ⟨-, stopped⟩ | was
        · rw [stopped] at running
          cases running
        · rw [was]
          exact Or.inl running
    | removeContainer serial =>
        rw [show after = fleet.keep (·.serial ≠ serial) from changed] at member
        exact stays (List.mem_filter.mp member).1
    | _ => exact changed.elim

theorem record_before {after : Fleet} (possible : databaseSystem.can op fleet answer after)
    {db : ManagedDatabase} (member : db ∈ after.databases) :
    db ∈ fleet.databases ∨ op = .saveManagedDatabase db := by
  rcases fleet_step possible with same | changed
  · rw [same] at member
    exact Or.inl member
  · cases op with
    | saveManagedDatabase saved =>
        rw [show after = fleet.save saved from changed] at member
        rcases mem_upsert.mp member with same | ⟨old, -⟩
        · rw [same]
          exact Or.inr rfl
        · exact Or.inl old
    | deleteManagedDatabase id =>
        rw [show after = fleet.delete id from changed] at member
        exact Or.inl (List.mem_filter.mp member).1
    | createContainer name =>
        rw [show after = (fleet.create name).2 from changed] at member
        unfold Fleet.create at member
        split_ifs at member
        · exact Or.inl member
        · exact Or.inl member
    | removeContainerIfExists name =>
        rw [show after = fleet.keep (·.name ≠ name) from changed] at member
        exact Or.inl member
    | startContainer serial =>
        rw [show after = fleet.switch serial true from changed] at member
        exact Or.inl member
    | stopContainer serial =>
        rw [show after = fleet.switch serial false from changed] at member
        exact Or.inl member
    | removeContainer serial =>
        rw [show after = fleet.keep (·.serial ≠ serial) from changed] at member
        exact Or.inl member
    | _ => exact changed.elim

theorem deleted_step {id : Uuid} {found : Bool} {after : Fleet}
    (possible : databaseSystem.can (.deleteManagedDatabase id) fleet (.ok found) after) :
    ∀ db ∈ after.databases, db.id ≠ id := by
  obtain ⟨fault, -, result⟩ := possible
  cases fault with
  | some message => cases congrArg Prod.fst result
  | none =>
      have table : fleet.delete id = after := congrArg Prod.snd result
      rw [← table]
      intro db member
      simpa using (List.mem_filter.mp member).2

theorem removed_step {answer : Except String Unit} {after : Fleet}
    (possible : databaseSystem.can (.removeContainer serial) fleet answer after)
    (removes : fleet.isThere serial = true → Succeeds answer) :
    ∀ container ∈ after.containers, container.serial ≠ serial := by
  obtain ⟨fault, -, result⟩ := possible
  cases there : fleet.isThere serial with
  | false =>
      have same : after = fleet := by
        cases fault with
        | some message => exact (congrArg Prod.snd result).symm
        | none =>
            have served : fleet.withContainer serial (fleet.keep (·.serial ≠ serial)) =
              (answer, after) := result
            unfold Fleet.withContainer at served
            rw [there] at served
            exact (congrArg Prod.snd served).symm
      rw [same]
      intro container member isIt
      have present : fleet.isThere serial = true :=
        List.any_eq_true.mpr ⟨container, member, decide_eq_true isIt⟩
      rw [there] at present
      cases present
  | true =>
      have succeeds := removes there
      cases fault with
      | some message =>
          have refused : Except.error message = answer := congrArg Prod.fst result
          rw [← refused] at succeeds
          exact succeeds.elim
      | none =>
          have served : fleet.withContainer serial (fleet.keep (·.serial ≠ serial)) =
            (answer, after) := result
          unfold Fleet.withContainer at served
          rw [if_pos there] at served
          have kept : fleet.keep (·.serial ≠ serial) = after := congrArg Prod.snd served
          rw [← kept]
          intro container member
          simpa using (List.mem_filter.mp member).2

theorem removed_name_step {name : String} {answer : Except String Unit} {after : Fleet}
    (possible : databaseSystem.can (.removeContainerIfExists name) fleet answer after)
    (succeeds : Succeeds answer) : ∀ container ∈ after.containers, container.name ≠ name := by
  obtain ⟨fault, -, result⟩ := possible
  cases fault with
  | some message =>
      have refused : Except.error message = answer := congrArg Prod.fst result
      rw [← refused] at succeeds
      exact succeeds.elim
  | none =>
      have kept : fleet.keep (·.name ≠ name) = after := congrArg Prod.snd result
      rw [← kept]
      intro container member
      simpa using (List.mem_filter.mp member).2

/-- What a call of the deletion leaves of the running containers, by their id and name. -/
def Leaves (id : Uuid) : (op : DatabaseOp) → op.Answer → Nat → String → Prop
  | .getManagedDatabase wanted, answer, serial, name => wanted = id → ∀ db : ManagedDatabase,
      answer = .ok (some db) → name = databaseContainerName id → db.containerId = some serial
  | .removeContainer removed, _, serial, _ => serial ≠ removed
  | .removeContainerIfExists removed, _, _, name => name ≠ removed
  | _, _, _, _ => True

def Standing (id : Uuid) (fleet : Fleet) (left : Nat → String → Prop) : Prop :=
  ∀ container ∈ fleet.containers, container.running = true → container.belongsTo id →
    left container.serial container.name

variable {history : List (Event DatabaseEffects Thread)}
  {pool after start : Pool DatabaseEffects Thread (Except ApiError Unit) Fleet}
  {event : Event DatabaseEffects Thread}

theorem standing_kept (met : Undisturbed deletion id history pool event)
    (taken : Pool.Step databaseSystem.can pool event after)
    (begun : ∃ past ∈ history, past.thread = deletion) {left : Nat → String → Prop}
    (standing : Standing id pool.state left) : Standing id after.state left := by
  obtain ⟨next, -, possible, -⟩ := taken.own
  intro container member running belongs
  obtain ⟨old, inFleet, sameSerial, sameName, how⟩ := running_before possible member running
  have belonged : old.belongsTo id := by
    unfold DatabaseContainer.belongsTo
    rw [sameName]
    exact belongs
  rcases how with was | starts
  · rw [← sameSerial, ← sameName]
    exact standing old inFleet was belonged
  · exact absurd belonged (met.started _ starts begun old inFleet sameSerial)

theorem standing_made (met : Undisturbed deletion id history pool event)
    (taken : Pool.Step databaseSystem.can pool event after) (own : event.thread = deletion) :
    Standing id after.state (Leaves id event.op event.answer) := by
  have named := met.named
  have removed := met.removed own
  obtain ⟨next, -, possible, -⟩ := taken.own
  obtain ⟨thread, op, answer⟩ := event
  dsimp only at own possible removed
  subst own
  intro container member running belongs
  cases op with
  | getManagedDatabase wanted =>
      rintro rfl db rfl isMain
      have same : after.state = pool.state := (fleet_step possible).resolve_right not_false
      rw [same] at member
      exact named db rfl container member isMain running
  | removeContainer serial => exact removed_step possible removed container member
  | removeContainerIfExists name => exact removed_name_step possible removed container member
  | _ => trivial

variable {requests : Thread → Request}

theorem standing_since {dataDir : String}
    (trace : Pool.Trace databaseSystem.can (Undisturbed deletion id)
      (databaseRequests dataDir requests fleet) history pool) :
    ∀ past ∈ history, past.thread = deletion →
      Standing id pool.state (Leaves id past.op past.answer) := by
  apply trace.invariant fun history pool => ∀ past ∈ history, past.thread = deletion →
    Standing id pool.state (Leaves id past.op past.answer)
  · intro past member
    cases member
  · intro history pool event after _ held taken met past member own
    rcases List.mem_append.mp member with old | new
    · exact standing_kept met taken ⟨past, old, own⟩ (held past old own)
    · rw [List.mem_singleton.mp new] at own ⊢
      exact standing_made met taken own

theorem record_stays_deleted {dataDir : String}
    (trace : Pool.Trace databaseSystem.can (Undisturbed deletion id)
      (databaseRequests dataDir requests fleet) history pool) :
    (∃ found : Bool, (⟨deletion, .deleteManagedDatabase id, Except.ok found⟩ :
      Event DatabaseEffects Thread) ∈ history) → ∀ db ∈ pool.state.databases, db.id ≠ id := by
  apply trace.invariant fun history pool =>
    (∃ found : Bool, (⟨deletion, .deleteManagedDatabase id, Except.ok found⟩ :
      Event DatabaseEffects Thread) ∈ history) → ∀ db ∈ pool.state.databases, db.id ≠ id
  · rintro ⟨found, member⟩
    cases member
  · rintro history pool event after _ held taken met ⟨found, member⟩ db inTable
    obtain ⟨next, -, possible, -⟩ := taken.own
    rcases List.mem_append.mp member with old | new
    · rcases record_before possible inTable with was | saved
      · exact held ⟨found, old⟩ db was
      · exact met.saved db saved ⟨found, old⟩
    · have isLast := List.mem_singleton.mp new
      subst isLast
      exact deleted_step possible db inTable

/-- A database whose deletion has returned `Ok` stays deleted, whatever requests on
databases run beside it, as long as each step leaves the deletion undisturbed. -/
theorem deleted_stays_deleted (dataDir : String) (requests : Thread → Request) (fleet : Fleet)
    (deletion : Thread) (userId id : Uuid) (deletes : requests deletion = .delete userId id)
    {history : List (Event DatabaseEffects Thread)}
    {pool : Pool DatabaseEffects Thread (Except ApiError Unit) Fleet}
    (trace : Pool.Trace databaseSystem.can (Undisturbed deletion id)
      (databaseRequests dataDir requests fleet) history pool)
    (ended : pool.threads deletion = .pure (.ok ())) : Gone id pool.state := by
  have program : (databaseRequests dataDir requests fleet).threads deletion =
      (deleteDatabase dataDir userId id).run := by
    have handled : handle dataDir (requests deletion) = (deleteDatabase dataDir userId id).run := by
      rw [deletes]
      rfl
    exact handled
  have sound : ∀ history pool event after, Pool.Trace databaseSystem.can
      (Undisturbed deletion id) (databaseRequests dataDir requests fleet) history pool →
      Pool.Step databaseSystem.can pool event after → Undisturbed deletion id history pool event →
      event.thread = deletion → Obliges event.op event.answer := by
    intro history pool event after _ taken met own
    have removed := met.removed own
    obtain ⟨next, -, possible, -⟩ := taken.own
    obtain ⟨thread, op, answer⟩ := event
    cases op with
    | getManagedDatabase wanted =>
        rintro db rfl
        obtain ⟨fault, -, result⟩ := possible
        cases fault with
        | some message => cases congrArg Prod.fst result
        | none =>
            have found : Except.ok (lookup (·.id) wanted pool.state.databases) =
              Except.ok (some db) := congrArg Prod.fst result
            exact (lookup_eq_some_mem (Except.ok.inj found)).2
    | removeContainerIfExists name => exact removed
    | _ => trivial
  obtain ⟨earlier, others, split, -, done⟩ := trace.ended_amid sound
    (program ▸ delete_database_among dataDir userId) ended
  have completed : Completed deletion id earlier := done
  have inHistory : ∀ event ∈ earlier, event ∈ history := by
    intro event member
    rw [split]
    exact List.mem_append_left _ member
  constructor
  · obtain ⟨found, member⟩ := completed.deleted
    exact record_stays_deleted trace ⟨found, inHistory _ member⟩
  · intro container member belongs
    by_contra stands
    have running : container.running = true := by simpa using stands
    obtain ⟨db, asked, ⟨answer, proxy⟩, removed⟩ := completed.stopped
    have standing := standing_since trace
    rcases belongs with isMain | isProxy
    · have named : db.containerId = some container.serial :=
        standing _ (inHistory _ asked) rfl container member running (Or.inl isMain) rfl db rfl isMain
      obtain ⟨reply, made⟩ := removed _ named
      exact standing _ (inHistory _ made) rfl container member running (Or.inl isMain) rfl
    · exact standing _ (inHistory _ proxy) rfl container member running (Or.inr isProxy) isProxy

/-- `named` for what the step reads. -/
def namesRunning (id : Uuid) (fleet : Fleet) : (op : DatabaseOp) → op.Answer → Bool
  | .getManagedDatabase _, answer => match answer with
    | .ok (some db) => fleet.containers.all fun container =>
        !(container.name = databaseContainerName id && container.running) ||
          db.containerId = some container.serial
    | _ => true
  | _, _ => true

def startsNothing (id : Uuid) (fleet : Fleet) : DatabaseOp → Bool
  | .startContainer serial => fleet.containers.all fun container => !(container.serial = serial) ||
      !(container.name = databaseContainerName id || container.name = proxyContainerName id)
  | _ => true

def savesNothing (id : Uuid) : DatabaseOp → Bool
  | .saveManagedDatabase db => db.id ≠ id
  | _ => true

def removes : (op : DatabaseOp) → op.Answer → Bool
  | .removeContainerIfExists _, answer | .removeContainer _, answer => match answer with
    | .ok _ => true
    | .error _ => false
  | _, _ => true

def undisturbed (deletion : Thread) (id : Uuid) (history : List (Event DatabaseEffects Thread))
    (pool : Pool DatabaseEffects Thread (Except ApiError Unit) Fleet)
    (event : Event DatabaseEffects Thread) : Bool :=
  namesRunning id pool.state event.op event.answer &&
  (!history.any (·.thread = deletion) || startsNothing id pool.state event.op) &&
  (!history.any (fun past => past.op = .deleteManagedDatabase id) || savesNothing id event.op) &&
  (!(event.thread = deletion) || removes event.op event.answer)

theorem starts_nothing_sound (passed : startsNothing id fleet (.startContainer serial) = true) :
    ∀ container ∈ fleet.containers, container.serial = serial → ¬container.belongsTo id := by
  intro container member same belongs
  have whole := List.all_eq_true.mp passed container member
  rcases belongs with isMain | isProxy
  · simp [same, isMain] at whole
  · simp [same, isProxy] at whole

theorem undisturbed_sound {history : List (Event DatabaseEffects Thread)}
    {pool : Pool DatabaseEffects Thread (Except ApiError Unit) Fleet}
    {event : Event DatabaseEffects Thread}
    (passed : undisturbed deletion id history pool event = true) :
    Undisturbed deletion id history pool event := by
  unfold undisturbed at passed
  simp only [Bool.and_eq_true, Bool.or_eq_true, Bool.not_eq_true', List.any_eq_false,
    decide_eq_true_eq, decide_eq_false_iff_not] at passed
  obtain ⟨⟨⟨named, started⟩, saved⟩, removed⟩ := passed
  constructor
  · rintro db rfl container member isMain running
    have whole := List.all_eq_true.mp named container member
    simpa [isMain, running] using whole
  · rintro serial isStart ⟨past, member, own⟩
    rw [isStart] at started
    exact starts_nothing_sound (started.resolve_left fun none => none past member own)
  · rintro db isSave ⟨found, member⟩ same
    rw [isSave] at saved
    have keeps := saved.resolve_left fun none => none _ member rfl
    simp [savesNothing, same] at keeps
  · intro own
    have taken := removed.resolve_left fun other => other own
    obtain ⟨thread, op, answer⟩ := event
    cases op with
    | removeContainerIfExists name =>
        cases answer with
        | ok _ => trivial
        | error message => cases taken
    | removeContainer serial =>
        cases answer with
        | ok _ => exact fun _ => trivial
        | error message => cases taken
    | _ => trivial

end Interleavings

def demoDatabase : ManagedDatabase where
  id := ⟨1⟩
  ownerId := ⟨7⟩
  groupId := none
  name := "orders"
  dbType := .postgresql
  version := "16"
  containerId := none
  hostDataPath := "/data/databases/1/data"
  pitrEnabled := false
  proxyEnabled := false
  memoryLimit := 536870912
  status := .stopped

/-- Nothing fails, and no network is there. -/
def calmDatabases : databaseSystem.Policy
  | .newUuid, _ => (⟨1⟩ : Uuid)
  | .getManagedDatabase _, _ => none
  | .saveManagedDatabase _, _ => none
  | .deleteManagedDatabase _, _ => none
  | .createContainer _, _ => none
  | .removeContainerIfExists _, _ => none
  | .startContainer _, _ => none
  | .stopContainer _, _ => none
  | .removeContainer _, _ => none
  | .getServiceInventory _ _, _ => Except.ok true
  | .resolveGroupId _ _, _ => Except.ok none
  | .ensureImage _, _ => Except.ok ()
  | .ensureHostDir _, _ => Except.ok ()
  | .writeFile _, _ => Except.ok ()
  | .ensureNetwork _, _ => Except.ok ()
  | .isRunning _, _ => true
  | .waitForReady _ _, _ => Except.ok true
  | .networkExists _, _ => false
  | .removeNetwork _, _ => Except.ok ()
  | .removeDirAll _, _ => Except.ok ()

def databaseTurns (thread : Bool) (count : Nat) : List (Bool × databaseSystem.Policy) :=
  List.replicate count (thread, calmDatabases)

def demoDatabaseRequests (deletes : Bool) : Request :=
  if deletes then .delete ⟨7⟩ ⟨1⟩ else .act .start ⟨7⟩ ⟨1⟩

def demoFleet : Pool DatabaseEffects Bool (Except ApiError Unit) Fleet :=
  databaseRequests "/data" demoDatabaseRequests ⟨[demoDatabase], [], 0⟩

def bothOk (pool : Pool DatabaseEffects Bool (Except ApiError Unit) Fleet) : Bool :=
  (pool.threads false).returned = some (.ok ()) && (pool.threads true).returned = some (.ok ())

theorem deleted_stays_deleted_in_turn :
    ∃ history pool, Pool.Trace databaseSystem.can (Undisturbed true ⟨1⟩) demoFleet history pool ∧
      bothOk pool = true ∧ Gone ⟨1⟩ pool.state := by
  have ran : (Pool.executeChecked databaseSystem (undisturbed true ⟨1⟩)
      (databaseTurns false 12 ++ databaseTurns true 7) [] demoFleet).map
        (fun last => bothOk last.2) = some true := by decide +kernel
  obtain ⟨⟨history, pool⟩, executed, ended⟩ := Option.map_eq_some_iff.mp ran
  have trace : Pool.Trace databaseSystem.can (Undisturbed true ⟨1⟩) demoFleet history pool :=
    Pool.Trace.of_checked (fun _ _ _ _ => trivial) (fun _ _ _ passed => undisturbed_sound passed)
      .start executed
  have both : bothOk pool = true := ended
  have parts := Bool.and_eq_true_iff.mp both
  have deletionEnded : pool.threads true = .pure (.ok ()) :=
    returned_eq_some (of_decide_eq_true parts.2)
  exact ⟨history, pool, trace, both, deleted_stays_deleted "/data" demoDatabaseRequests
    ⟨[demoDatabase], [], 0⟩ true ⟨7⟩ ⟨1⟩ rfl trace deletionEnded⟩

/-- The deletion reads the record of a database that is starting. -/
theorem started_database_returns :
    ∃ history pool, Pool.Trace databaseSystem.can (fun _ _ _ => True) demoFleet history pool ∧
      bothOk pool = true ∧ (∃ db ∈ pool.state.databases, db.id = ⟨1⟩) ∧
      (∃ container ∈ pool.state.containers, container.name = databaseContainerName ⟨1⟩ ∧
        container.running = true) ∧ ¬Gone ⟨1⟩ pool.state := by
  have ran : (Pool.execute databaseSystem
      (databaseTurns false 2 ++ databaseTurns true 5 ++ databaseTurns false 10) demoFleet).map
        (fun last => (bothOk last.2, last.2.state.databases.any (·.id = ⟨1⟩),
          last.2.state.containers.any fun container =>
            container.name = databaseContainerName ⟨1⟩ && container.running)) =
      some (true, true, true) := by decide +kernel
  obtain ⟨⟨history, pool⟩, executed, ended⟩ := Option.map_eq_some_iff.mp ran
  obtain ⟨both, rest⟩ := Prod.mk.inj ended
  obtain ⟨record, container⟩ := Prod.mk.inj rest
  obtain ⟨db, inTable, isIt⟩ := List.any_eq_true.mp record
  obtain ⟨standing, inFleet, runs⟩ := List.any_eq_true.mp container
  have parts := Bool.and_eq_true_iff.mp runs
  have same : db.id = ⟨1⟩ := of_decide_eq_true isIt
  refine ⟨history, pool, Pool.Trace.of_execute (fun _ _ _ _ => trivial) executed, both,
    ⟨db, inTable, same⟩, ⟨standing, inFleet, of_decide_eq_true parts.1, parts.2⟩, ?_⟩
  intro gone
  exact gone.record db inTable same

end Containr.Managed.Databases
