import Containr.Effect.Amid
import Containr.Effect.IndexedLog
import Containr.Effect.Map
import Containr.Models

/-!
# `handle_deployment_logs` of `containr-api/src/handlers/websocket.rs`

The handler reads the lines of a deployment in pages from an offset, sends each, and
closes with the status once that is final and no line is left. Between its calls other
tasks append lines and save statuses. The offset is bound as a signed word, so an offset
from `2^63` on reads from the first line.
-/

namespace Containr.Api.LogStream

open Containr.Effect
open Containr.Effect.Program

/-- What `socket.recv().now_or_never()` finds. -/
inductive SocketPoll where
  | close | error | ended | pending | message
deriving DecidableEq, Repr

def SocketPoll.gone : SocketPoll → Bool
  | .close | .error | .ended => true
  | .pending | .message => false

inductive StreamOp where
  | getDeployment (id : Uuid)
  | getDeploymentLogs (id : Uuid) (limit offset : Nat)
  | send (text : String)
  | sleep
  | pollSocket
  | appendDeploymentLog (id : Uuid) (line : String)
  | saveStatus (id : Uuid) (status : DeploymentStatus)
deriving DecidableEq, Repr

def StreamOp.Answer : StreamOp → Type
  | .getDeployment _ => Except String (Option DeploymentStatus)
  | .getDeploymentLogs _ _ _ => Except String (List String)
  | .send _ => Bool
  | .sleep => Unit
  | .pollSocket => SocketPoll
  | .appendDeploymentLog _ _ | .saveStatus _ _ => Except String Unit

abbrev StreamFace : Interface := ⟨StreamOp, StreamOp.Answer⟩

abbrev StreamProg (Value : Type) : Type := Program StreamFace Value

def StreamOp.call (op : StreamOp) : StreamProg op.Answer := @Program.perform StreamFace op

structure LogStore where
  statuses : Map Uuid DeploymentStatus
  logs : IndexedLog Uuid String

/-- A fault of the store, or what the socket does. -/
def StreamOp.Choice : StreamOp → Type
  | .send _ => Bool
  | .sleep => Unit
  | .pollSocket => SocketPoll
  | _ => Option String

def StreamOp.exec : (op : StreamOp) → op.Choice → LogStore → op.Answer × LogStore
  | .getDeployment _, some message, store => (.error message, store)
  | .getDeployment id, none, store => (.ok (store.statuses.get id), store)
  | .getDeploymentLogs _ _ _, some message, store => (.error message, store)
  | .getDeploymentLogs id limit offset, none, store =>
      (.ok (page (asI64 limit) (asI64 offset) (store.logs.ascending id)), store)
  | .send _, sent, store => (sent, store)
  | .sleep, _, store => ((), store)
  | .pollSocket, found, store => (found, store)
  | .appendDeploymentLog _ _, some message, store => (.error message, store)
  | .appendDeploymentLog id line, none, store =>
      if store.statuses.contains id then
        match store.logs.nextIdx id with
        | some idx => (.ok (), { store with logs := store.logs.insert id idx line })
        | none => (.error "mismatched types: i64 is not compatible with SQL type REAL", store)
      else (.error "FOREIGN KEY constraint failed", store)
  | .saveStatus _ _, some message, store => (.error message, store)
  | .saveStatus id status, none, store =>
      (.ok (), { store with statuses := store.statuses.insert id status })

def streamSystem : Machine StreamFace LogStore := ⟨StreamOp.Choice, StreamOp.exec, fun _ _ _ => True⟩

/-- How the handler ends; it is still `running` when its rounds are used up. -/
inductive StreamEnd where
  | closed (status : DeploymentStatus)
  | left
  | running
deriving DecidableEq, Repr

def isFinished : DeploymentStatus → Bool
  | .running | .failed | .stopped => true
  | _ => false

/-- `format!("{:?}", status).to_lowercase()`. -/
def statusText : DeploymentStatus → String
  | .pending => "pending"
  | .cloning => "cloning"
  | .building => "building"
  | .pushing => "pushing"
  | .starting => "starting"
  | .running => "running"
  | .failed => "failed"
  | .stopped => "stopped"

def closingMessage (status : DeploymentStatus) : String := "[deployment " ++ statusText status ++ "]"

def pageSize : Nat := 100

/-- Sends each line; the offset after them, or `none` when the socket is broken. -/
def sendLines : List String → Nat → StreamProg (Option Nat)
  | [], offset => .pure (some offset)
  | line :: lines, offset => (StreamOp.send line).call.bind fun (sent : Bool) =>
      if sent then sendLines lines (offset + 1) else .pure none

/-- The pause between two rounds; `true` when the client is gone. -/
def waitForClient : StreamProg Bool :=
  StreamOp.sleep.call.bind fun _ => StreamOp.pollSocket.call.bind fun (found : SocketPoll) =>
    .pure found.gone

/-- `none`: go on with the next round. -/
def closeWhenFinished (id : Uuid) (status : DeploymentStatus) (offset : Nat) :
    StreamProg (Option StreamEnd) :=
  if isFinished status then
    (StreamOp.getDeploymentLogs id 1 offset).call.bind
      fun (read : Except String (List String)) => match read with
        | .error _ => .pure (some .left)
        | .ok [] => (StreamOp.send (closingMessage status)).call.bind fun _ =>
            .pure (some (.closed status))
        | .ok (_ :: _) => .pure none
  else .pure none

def streamRound (id : Uuid) (offset : Nat) : StreamProg (StreamEnd ⊕ Nat) :=
  (StreamOp.getDeploymentLogs id pageSize offset).call.bind
    fun (read : Except String (List String)) => match read with
      | .error message => (StreamOp.send ("error reading logs: " ++ message)).call.bind fun _ =>
          .pure (.inl .left)
      | .ok lines => (sendLines lines offset).bind fun moved => match moved with
        | none => .pure (.inl .left)
        | some offset => (StreamOp.getDeployment id).call.bind
            fun (found : Except String (Option DeploymentStatus)) => match found with
              | .ok (some status) => (closeWhenFinished id status offset).bind fun ended =>
                  match ended with
                  | some ended => .pure (.inl ended)
                  | none => waitForClient.bind fun gone =>
                      .pure (if gone then .inl .left else .inr offset)
              | _ => .pure (.inl .left)

def streamLoop (id : Uuid) : Nat → Nat → StreamProg StreamEnd
  | 0, _ => .pure .running
  | rounds + 1, offset => (streamRound id offset).bind fun result => match result with
      | .inl ended => .pure ended
      | .inr offset => streamLoop id rounds offset

def handleDeploymentLogs (id : Uuid) (initialOffset rounds : Nat) : StreamProg StreamEnd :=
  (StreamOp.getDeployment id).call.bind
    fun (found : Except String (Option DeploymentStatus)) => match found with
      | .ok (some _) => streamLoop id rounds initialOffset
      | .ok none => (StreamOp.send "error: deployment not found").call.bind fun _ => .pure .left
      | .error message => (StreamOp.send ("error: " ++ message)).call.bind fun _ => .pure .left

def storedLine (id : Uuid) : Call StreamFace → Option String
  | ⟨.appendDeploymentLog other line, Except.ok ()⟩ => if other = id then some line else none
  | _ => none

def sentText : Call StreamFace → Option String
  | ⟨.send text, true⟩ => some text
  | _ => none

section Histories

variable {Thread : Type} [DecidableEq Thread]

def storedLines (id : Uuid) (history : List (Event StreamFace Thread)) : List String :=
  history.filterMap fun event => storedLine id ⟨event.op, event.answer⟩

def sentBy (thread : Thread) (history : List (Event StreamFace Thread)) : List String :=
  (Pool.own thread history).filterMap sentText

/-- The stream that closed with this status after sending these lines: they are the lines
from the offset on as they were at the last read, and none stored before the status was
read is missing. -/
structure Closed (id : Uuid) (offset : Nat) (thread : Thread) (status : DeploymentStatus)
    (history : List (Event StreamFace Thread)) (lines : List String) : Prop where
  finished : isFinished status = true
  sent : sentBy thread history = lines ++ [closingMessage status]
  exact : ∃ before read between after,
    history = before ++ [⟨thread, .getDeployment id, Except.ok (some status)⟩] ++ between ++
      ⟨thread, .getDeploymentLogs id 1 read, Except.ok []⟩ :: after ∧
    lines = (storedLines id (before ++
      [⟨thread, .getDeployment id, Except.ok (some status)⟩] ++ between)).drop offset ∧
    ∀ earlier, earlier <+: before → (storedLines id earlier).drop offset <+: lines

/-- What was sent by a handler that has come to this point. -/
def Streamed (id : Uuid) (offset : Nat) (thread : Thread)
    (history : List (Event StreamFace Thread)) : StreamProg StreamEnd → Prop
  | .pure (.closed status) => ∃ lines, Closed id offset thread status history lines
  | .pure .left => False
  | _ => sentBy thread history <+: (storedLines id history).drop offset

/-- The socket stays open, reads do not fail and the deployment is there. -/
def Undisturbed : Call StreamFace → Prop
  | ⟨.getDeployment _, answer⟩ => ∃ status, answer = Except.ok (some status)
  | ⟨.getDeploymentLogs _ _ _, answer⟩ => ∃ lines, answer = Except.ok lines
  | ⟨.send _, answer⟩ => answer = true
  | ⟨.pollSocket, answer⟩ => SocketPoll.gone answer = false
  | _ => True

def OffsetFits (history : List (Event StreamFace Thread)) : StreamOp → Prop
  | .getDeploymentLogs id _ offset => offset < 2 ^ 63 ∨ storedLines id history = []
  | _ => True

def CalmFor {Value State : Type} (reader : Thread) :
    Pool.Restriction StreamFace Thread Value State := fun history _ event =>
  event.thread = reader → Undisturbed ⟨event.op, event.answer⟩ ∧ OffsetFits history event.op

variable {id : Uuid} {thread : Thread} {history others : List (Event StreamFace Thread)}

omit [DecidableEq Thread] in
theorem stored_lines_append (id : Uuid) (history others : List (Event StreamFace Thread)) :
    storedLines id (history ++ others) = storedLines id history ++ storedLines id others :=
  List.filterMap_append

omit [DecidableEq Thread] in
theorem stored_lines_grow (start : Nat) (id : Uuid)
    (history others : List (Event StreamFace Thread)) :
    (storedLines id history).drop start <+: (storedLines id (history ++ others)).drop start := by
  rw [stored_lines_append]
  rw [List.drop_append]
  exact List.prefix_append _ _

theorem sent_by_foreign (foreign : ∀ event ∈ others, event.thread ≠ thread) :
    sentBy thread (history ++ others) = sentBy thread history := by
  have none : others.filter (fun event => event.thread = thread) = [] := by
    rw [List.filter_eq_nil_iff]
    intro event member
    simpa using foreign event member
  unfold sentBy Pool.own
  rw [List.filter_append, none, List.append_nil]

theorem sent_by_own (op : StreamOp) (answer : op.Answer) :
    sentBy thread (history ++ [⟨thread, op, answer⟩]) =
      sentBy thread history ++ (sentText ⟨op, answer⟩).toList := by
  unfold sentBy
  rw [Pool.own_append_same history ⟨thread, op, answer⟩, List.filterMap_append]
  cases text : sentText ⟨op, answer⟩ with
  | none => simp [text]
  | some sent => simp [text]

theorem sent_by_quiet (foreign : ∀ event ∈ others, event.thread ≠ thread) {op : StreamOp}
    {answer : op.Answer} (silent : sentText ⟨op, answer⟩ = none) :
    sentBy thread (history ++ others ++ [⟨thread, op, answer⟩]) = sentBy thread history := by
  rw [sent_by_own, sent_by_foreign foreign, silent]
  exact List.append_nil _

def Sent (id : Uuid) (start : Nat) (thread : Thread) (offset : Nat)
    (history : List (Event StreamFace Thread)) : Prop :=
  ∃ lines, sentBy thread history = lines ∧ offset = start + lines.length ∧
    lines <+: (storedLines id history).drop start

theorem Sent.so_far {start offset : Nat} (sent : Sent id start thread offset history) :
    sentBy thread history <+: (storedLines id history).drop start := by
  obtain ⟨lines, same, -, front⟩ := sent
  rw [same]
  exact front

/-- Calls that send nothing, and whatever the others do. -/
theorem Sent.quiet {start offset : Nat} (sent : Sent id start thread offset history)
    (foreign : ∀ event ∈ others, event.thread ≠ thread) {op : StreamOp} {answer : op.Answer}
    (silent : sentText ⟨op, answer⟩ = none) :
    Sent id start thread offset (history ++ others ++ [⟨thread, op, answer⟩]) := by
  obtain ⟨lines, same, length, front⟩ := sent
  refine ⟨lines, ?_, length, ?_⟩
  · rw [sent_by_quiet foreign silent, same]
  · rw [List.append_assoc]
    exact front.trans (stored_lines_grow start id history _)

theorem Sent.rest {start offset : Nat} (sent : Sent id start thread offset history)
    (others : List (Event StreamFace Thread)) :
    (storedLines id (history ++ others)).drop start =
      sentBy thread history ++ (storedLines id (history ++ others)).drop offset := by
  obtain ⟨lines, same, length, front⟩ := sent
  obtain ⟨rest, whole⟩ := front.trans (stored_lines_grow start id history others)
  have dropped := congrArg (List.drop lines.length) whole
  rw [List.drop_append_of_le_length (le_refl _), List.drop_length, List.nil_append,
    List.drop_drop] at dropped
  rw [same, ← whole, length, dropped]

def Answered (history : List (Event StreamFace Thread)) : (op : StreamOp) → op.Answer → Prop
  | .getDeploymentLogs id limit offset, answer => limit < 2 ^ 63 →
      answer = Except.ok (((storedLines id history).drop offset).take limit)
  | op, answer => Undisturbed ⟨op, answer⟩

def SoFar (id : Uuid) (start : Nat) (thread : Thread) (history : List (Event StreamFace Thread))
    (_ : StreamOp) : Prop := sentBy thread history <+: (storedLines id history).drop start

variable {start offset : Nat} {op : StreamOp}

omit [DecidableEq Thread] in
theorem stream_op_always {can : Behaviour StreamFace (List (Event StreamFace Thread))}
    {ok : List (Event StreamFace Thread) → StreamOp → Prop}
    {post : op.Answer → List (Event StreamFace Thread) → Prop} :
    op.call.Always can ok post history ↔ ok history op ∧ ∀ answer after,
      can op history answer after → post answer after := by
  unfold StreamOp.call
  exact @always_perform StreamFace _ can ok op post history

theorem send_lines_always (lines : List String) (sent : Sent id start thread offset history)
    (next : sentBy thread history ++ lines <+: (storedLines id history).drop start) :
    (sendLines lines offset).Always (Amid thread Answered) (SoFar id start thread)
      (fun result after => ∃ moved, result = some moved ∧ Sent id start thread moved after)
      history := by
  induction lines generalizing offset history with
  | nil => exact always_pure.mpr ⟨offset, rfl, sent⟩
  | cons line lines ih =>
      unfold sendLines
      apply always_bind.mpr
      apply stream_op_always.mpr
      refine ⟨sent.so_far, ?_⟩
      rintro answer after ⟨others, foreign, rfl, isSent⟩
      have accepted : answer = true := isSent
      have text : sentText ⟨.send line, answer⟩ = some line := by
        cases accepted
        rfl
      have appended := @sent_by_own _ _ thread (history ++ others) (.send line) answer
      rw [sent_by_foreign foreign, text] at appended
      have grown : sentBy thread history ++ [line] ++ lines <+:
          (storedLines id (history ++ others ++ [⟨thread, .send line, answer⟩])).drop start := by
        rw [List.append_assoc, List.append_assoc]
        exact next.trans (stored_lines_grow start id history _)
      cases accepted
      show (sendLines lines (offset + 1)).Always _ _ _ _
      apply ih
      · obtain ⟨before, same, length, -⟩ := sent
        refine ⟨sentBy thread history ++ [line], appended, ?_, ?_⟩
        · rw [same, List.length_append, List.length_singleton]
          omega
        · exact (List.prefix_append _ _).trans grown
      · rw [appended]
        exact grown

/-- The close: after the final status no line is left at a read, and the client is told. -/
theorem close_always {status : DeploymentStatus}
    (sent : Sent id start thread offset
      (history ++ [⟨thread, .getDeployment id, Except.ok (some status)⟩])) :
    (closeWhenFinished id status offset).Always (Amid thread Answered) (SoFar id start thread)
      (fun result after => match result with
        | none => Sent id start thread offset after
        | some (.closed status) => ∃ lines, Closed id start thread status after lines
        | some _ => False)
      (history ++ [⟨thread, .getDeployment id, Except.ok (some status)⟩]) := by
  unfold closeWhenFinished
  by_cases finished : isFinished status = true
  · rw [if_pos finished]
    apply always_bind.mpr
    apply stream_op_always.mpr
    refine ⟨sent.so_far, ?_⟩
    rintro answer after ⟨others, foreign, rfl, isRead⟩
    have silent : sentText ⟨.getDeploymentLogs id 1 offset, answer⟩ = none := rfl
    have still := sent.quiet foreign silent
    have unsent := @sent_by_quiet _ _ thread (history ++
      [⟨thread, .getDeployment id, Except.ok (some status)⟩]) others foreign _ _ silent
    have rest := sent.rest others
    have shown : answer = Except.ok (((storedLines id (history ++
      [⟨thread, .getDeployment id, Except.ok (some status)⟩] ++ others)).drop offset).take 1) :=
        isRead (by decide)
    cases left : (storedLines id (history ++
        [⟨thread, .getDeployment id, Except.ok (some status)⟩] ++ others)).drop offset with
    | cons line lines =>
        rw [left] at shown
        subst shown
        exact always_pure.mpr still
    | nil =>
        rw [left] at shown rest
        subst shown
        apply always_bind.mpr
        apply stream_op_always.mpr
        refine ⟨still.so_far, ?_⟩
        rintro told after ⟨meanwhile, foreignToo, rfl, isTold⟩
        have text : sentText ⟨.send (closingMessage status), told⟩ = some (closingMessage status) := by
          have accepted : told = true := isTold
          cases accepted
          rfl
        apply always_pure.mpr
        refine ⟨sentBy thread (history ++
          [⟨thread, .getDeployment id, Except.ok (some status)⟩]), finished, ?_, ?_⟩
        · rw [sent_by_own, sent_by_foreign foreignToo, text]
          exact congrArg (· ++ [closingMessage status]) unsent
        · refine ⟨history, offset, others,
            meanwhile ++ [⟨thread, .send (closingMessage status), told⟩], ?_, ?_, ?_⟩
          · simp
          · rw [List.append_nil] at rest
            exact rest.symm
          · intro earlier front
            obtain ⟨later, whole⟩ := front
            rw [List.append_nil] at rest
            rw [← rest, ← whole, List.append_assoc, List.append_assoc]
            exact stored_lines_grow start id earlier _
  · rw [if_neg finished]
    exact always_pure.mpr sent

/-- The pause sends nothing and finds the client there. -/
theorem wait_always (sent : Sent id start thread offset history) :
    waitForClient.Always (Amid thread Answered) (SoFar id start thread)
      (fun gone after => gone = false ∧ Sent id start thread offset after) history := by
  unfold waitForClient
  apply always_bind.mpr
  apply stream_op_always.mpr
  refine ⟨sent.so_far, ?_⟩
  rintro answer after ⟨others, foreign, rfl, -⟩
  have slept := @Sent.quiet _ _ id thread history others start offset sent foreign .sleep answer rfl
  apply always_bind.mpr
  apply stream_op_always.mpr
  refine ⟨slept.so_far, ?_⟩
  rintro found after ⟨others, foreign, rfl, isThere⟩
  have polled := @Sent.quiet _ _ id thread _ others start offset slept foreign .pollSocket found rfl
  exact always_pure.mpr ⟨isThere, polled⟩

/-- What a round leaves: the stream closed as it should, or the lines up to the new offset. -/
theorem round_always (sent : Sent id start thread offset history) :
    (streamRound id offset).Always (Amid thread Answered) (SoFar id start thread)
      (fun result after => match result with
        | .inl (.closed status) => ∃ lines, Closed id start thread status after lines
        | .inl _ => False
        | .inr offset => Sent id start thread offset after) history := by
  unfold streamRound
  apply always_bind.mpr
  apply stream_op_always.mpr
  refine ⟨sent.so_far, ?_⟩
  rintro answer after ⟨others, foreign, rfl, isRead⟩
  have silent : sentText ⟨.getDeploymentLogs id pageSize offset, answer⟩ = none := rfl
  have still := sent.quiet foreign silent
  have unsent := @sent_by_quiet _ _ thread history others foreign _ _ silent
  have rest := sent.rest others
  have shown : answer =
      Except.ok (((storedLines id (history ++ others)).drop offset).take pageSize) :=
    isRead (by decide)
  have next : sentBy thread history ++
      ((storedLines id (history ++ others)).drop offset).take pageSize <+:
      (storedLines id (history ++ others ++
        [⟨thread, .getDeploymentLogs id pageSize offset, answer⟩])).drop start := by
    have inside : sentBy thread history ++
        ((storedLines id (history ++ others)).drop offset).take pageSize <+:
        (storedLines id (history ++ others)).drop start := by
      rw [rest]
      exact (List.prefix_append_right_inj _).mpr (List.take_prefix _ _)
    exact inside.trans (stored_lines_grow start id _ _)
  rw [← unsent] at next
  generalize ((storedLines id (history ++ others)).drop offset).take pageSize = lines at shown next
  subst shown
  apply (send_lines_always lines still next).bind
  rintro result after ⟨moved, rfl, progress⟩
  apply always_bind.mpr
  apply stream_op_always.mpr
  refine ⟨progress.so_far, ?_⟩
  rintro answer after ⟨meanwhile, foreignToo, rfl, isFound⟩
  obtain ⟨status, found⟩ := isFound
  subst found
  have looked := @Sent.quiet _ _ id thread after meanwhile start moved progress foreignToo
    (.getDeployment id) (Except.ok (some status)) rfl
  apply (close_always looked).bind
  intro result after outcome
  cases result with
  | some ended => exact always_pure.mpr (by
      cases ended with
      | closed status => exact outcome
      | left => exact outcome
      | running => exact outcome)
  | none =>
      apply (wait_always outcome).bind
      rintro gone after ⟨rfl, waited⟩
      exact always_pure.mpr waited

theorem loop_always (rounds : Nat) (sent : Sent id start thread offset history) :
    (streamLoop id rounds offset).Always (Amid thread Answered) (SoFar id start thread)
      (fun ended after => Streamed id start thread after (.pure ended)) history := by
  induction rounds generalizing offset history with
  | zero => exact always_pure.mpr sent.so_far
  | succ rounds ih =>
      unfold streamLoop
      apply (round_always sent).bind
      intro result after outcome
      cases result with
      | inr offset => exact ih outcome
      | inl ended =>
          apply always_pure.mpr
          cases ended with
          | closed status => exact outcome
          | left => exact outcome
          | running => exact outcome.elim

theorem handler_always (id : Uuid) (start rounds : Nat) (thread : Thread) :
    (handleDeploymentLogs id start rounds).Always (Amid thread Answered) (SoFar id start thread)
      (fun ended after => Streamed id start thread after (.pure ended)) [] := by
  unfold handleDeploymentLogs
  apply always_bind.mpr
  apply stream_op_always.mpr
  have empty : Sent id start thread start [] := ⟨[], rfl, rfl, List.nil_prefix⟩
  refine ⟨empty.so_far, ?_⟩
  rintro answer after ⟨others, foreign, rfl, isFound⟩
  obtain ⟨status, found⟩ := isFound
  subst found
  have looked := @Sent.quiet _ _ id thread [] others start start empty foreign
    (.getDeployment id) (Except.ok (some status)) rfl
  exact loop_always rounds looked

def HoldsLines (history : List (Event StreamFace Thread)) (store : LogStore) : Prop :=
  ∀ id, store.logs.Holds id 0 (storedLines id history)

omit [DecidableEq Thread] in
theorem stored_lines_snoc (id : Uuid) (history : List (Event StreamFace Thread))
    (event : Event StreamFace Thread) :
    storedLines id (history ++ [event]) =
      storedLines id history ++ (storedLine id ⟨event.op, event.answer⟩).toList := by
  rw [stored_lines_append]
  apply congrArg
  unfold storedLines
  cases text : storedLine id ⟨event.op, event.answer⟩ with
  | none => simp [text]
  | some line => simp [text]

variable {store after : LogStore}

/-- A call stores one line under the next index, or leaves the lines alone. -/
theorem store_step {answer : op.Answer} (possible : streamSystem.can op store answer after) :
    (∃ other line idx, store.logs.nextIdx other = some idx ∧
      after.logs = store.logs.insert other idx line ∧
      ∀ id, storedLine id ⟨op, answer⟩ = if other = id then some line else none) ∨
    (after.logs = store.logs ∧ ∀ id, storedLine id ⟨op, answer⟩ = none) := by
  obtain ⟨choice, -, result⟩ := possible
  have executed : op.exec choice store = (answer, after) := result
  cases op with
  | appendDeploymentLog other line =>
      cases choice with
      | some message =>
          cases executed
          exact Or.inr ⟨rfl, fun _ => rfl⟩
      | none =>
          simp only [StreamOp.exec] at executed
          split at executed
          · split at executed
            · rename_i idx next
              cases executed
              exact Or.inl ⟨other, line, idx, next, rfl, fun _ => rfl⟩
            · cases executed
              exact Or.inr ⟨rfl, fun _ => rfl⟩
          · cases executed
            exact Or.inr ⟨rfl, fun _ => rfl⟩
  | saveStatus other status =>
      refine Or.inr ⟨?_, fun _ => rfl⟩
      cases choice with
      | some message =>
          cases executed
          rfl
      | none =>
          cases executed
          rfl
  | getDeployment other =>
      refine Or.inr ⟨?_, fun _ => rfl⟩
      cases choice with
      | some message =>
          cases executed
          rfl
      | none =>
          cases executed
          rfl
  | getDeploymentLogs other limit offset =>
      refine Or.inr ⟨?_, fun _ => rfl⟩
      cases choice with
      | some message =>
          cases executed
          rfl
      | none =>
          cases executed
          rfl
  | send text =>
      cases executed
      exact Or.inr ⟨rfl, fun _ => rfl⟩
  | sleep =>
      cases executed
      exact Or.inr ⟨rfl, fun _ => rfl⟩
  | pollSocket =>
      cases executed
      exact Or.inr ⟨rfl, fun _ => rfl⟩

omit [DecidableEq Thread] in
theorem holds_lines_step {event : Event StreamFace Thread} (held : HoldsLines history store)
    (possible : streamSystem.can event.op store event.answer after) :
    HoldsLines (history ++ [event]) after := by
  intro id
  rw [stored_lines_snoc]
  rcases store_step possible with ⟨other, line, idx, next, logs, stored⟩ | ⟨same, none⟩
  · rw [stored id]
    by_cases mine : other = id
    · subst mine
      have inserted := (held other).insert_next next line
      rw [ite_self] at inserted
      unfold IndexedLog.Holds at inserted ⊢
      rw [logs, inserted, if_pos rfl]
      rfl
    · have kept := held id
      unfold IndexedLog.Holds at kept ⊢
      rw [logs, IndexedLog.rows_insert_other _ _ _ (Ne.symm mine), kept, if_neg mine]
      simp
  · have kept := held id
    unfold IndexedLog.Holds at kept ⊢
    rw [none id, same, kept]
    simp

theorem holds_lines {Value : Type} {meets : Pool.Restriction StreamFace Thread Value LogStore}
    {start pool : Pool StreamFace Thread Value LogStore} (fresh : start.state.logs = [])
    (trace : Pool.Trace streamSystem.can meets start history pool) :
    HoldsLines history pool.state := by
  apply trace.invariant fun history pool => HoldsLines history pool.state
  · intro id
    rw [fresh]
    exact IndexedLog.holds_empty id 0
  · intro history pool event after _ held taken _
    obtain ⟨next, -, possible, -⟩ := taken.own
    exact holds_lines_step held possible

theorem page_of_lines {lines : List String} {limit offset : Nat} (small : limit < 2 ^ 63)
    (fits : offset < 2 ^ 63 ∨ lines = []) :
    page (asI64 limit) (asI64 offset) lines = (lines.drop offset).take limit := by
  unfold page
  rw [as_i64_small small, if_neg (by omega), Int.toNat_natCast]
  rcases fits with below | empty
  · rw [as_i64_small below, Int.toNat_natCast]
  · rw [empty, List.drop_nil, List.drop_nil]

omit [DecidableEq Thread] in
/-- The handler's calls in an undisturbed run whose offsets fit. -/
theorem answered {answer : op.Answer} (held : HoldsLines history store)
    (possible : streamSystem.can op store answer after) (calm : Undisturbed ⟨op, answer⟩)
    (fits : OffsetFits history op) : Answered history op answer := by
  cases op with
  | getDeploymentLogs id limit offset =>
      intro small
      obtain ⟨choice, -, result⟩ := possible
      have executed : StreamOp.exec (.getDeploymentLogs id limit offset) choice store =
        (answer, after) := result
      obtain ⟨lines, read⟩ := calm
      cases choice with
      | some message =>
          cases executed
          cases read
      | none =>
          cases executed
          have asked := page_of_lines small fits
          rw [← (held id).ascending] at asked ⊢
          exact congrArg Except.ok asked
  | _ => exact calm

theorem streamed_foreign (foreign : ∀ event ∈ others, event.thread ≠ thread)
    {program : StreamProg StreamEnd} (streamed : Streamed id start thread history program) :
    Streamed id start thread (history ++ others) program := by
  have sent := @sent_by_foreign _ _ thread history others foreign
  have grows : sentBy thread history <+: (storedLines id history).drop start →
      sentBy thread (history ++ others) <+: (storedLines id (history ++ others)).drop start := by
    intro soFar
    rw [sent]
    exact soFar.trans (stored_lines_grow start id history others)
  match program with
  | .call op next => exact grows streamed
  | .pure .running => exact grows streamed
  | .pure .left => exact streamed
  | .pure (.closed status) =>
      obtain ⟨lines, closed⟩ := streamed
      refine ⟨lines, closed.finished, ?_, ?_⟩
      · rw [sent]
        exact closed.sent
      · obtain ⟨before, read, between, after, whole, exact, complete⟩ := closed.exact
        refine ⟨before, read, between, after ++ others, ?_, exact, complete⟩
        rw [whole, List.append_assoc, List.cons_append]

/-- In every interleaving with other tasks, an undisturbed handler has at each moment sent a
beginning of the lines from its offset on; it ends only by closing, with all of them sent as
they were at the last read, as long as its offsets fit a signed word or nothing is stored. -/
theorem deployment_logs_streamed (id : Uuid) (offset rounds : Nat) (reader : Thread)
    {start pool : Pool StreamFace Thread StreamEnd LogStore}
    {history : List (Event StreamFace Thread)} (fresh : start.state.logs = [])
    (handler : start.threads reader = handleDeploymentLogs id offset rounds)
    (trace : Pool.Trace streamSystem.can (CalmFor reader) start history pool) :
    Streamed id offset reader history (pool.threads reader) := by
  obtain ⟨earlier, others, split, foreign, reached⟩ :=
    trace.amid reader fun history pool event after before taken met own => by
      obtain ⟨next, -, possible, -⟩ := taken.own
      obtain ⟨calm, fits⟩ := met own
      exact answered (holds_lines fresh before) possible calm fits
  rw [handler] at reached
  have left := (handler_always id offset rounds reader).reaches reached
  rw [split]
  apply streamed_foreign foreign
  match program : pool.threads reader with
  | .pure ended =>
      rw [program] at left
      have settled := always_pure.mp left
      exact settled
  | .call op next =>
      rw [program, always_call] at left
      exact left.1

end Histories

/-- No fault, and a client that stays. -/
def calmStream : streamSystem.Policy
  | .send _, _ => true
  | .sleep, _ => ()
  | .pollSocket, _ => SocketPoll.pending
  | .getDeployment _, _ => none
  | .getDeploymentLogs _ _ _, _ => none
  | .appendDeploymentLog _ _, _ => none
  | .saveStatus _ _, _ => none

def demoBuild : StreamProg StreamEnd :=
  (StreamOp.appendDeploymentLog ⟨1⟩ "compiling").call.bind fun _ =>
    (StreamOp.saveStatus ⟨1⟩ .running).call.bind fun _ => .pure .running

/-- The handler is thread `false`, the build thread `true`. -/
def demoStream (offset : Nat) : Pool StreamFace Bool StreamEnd LogStore :=
  ⟨fun build => if build then demoBuild else handleDeploymentLogs ⟨1⟩ offset 3,
    ⟨Map.empty.insert ⟨1⟩ .building, []⟩⟩

def demoTurns (turns : List Bool) : List (Bool × streamSystem.Policy) :=
  turns.map fun build => (build, calmStream)

def undisturbedCheck : Call StreamFace → Bool
  | ⟨.getDeployment _, Except.ok (some _)⟩ => true
  | ⟨.getDeployment _, _⟩ => false
  | ⟨.getDeploymentLogs _ _ _, Except.ok _⟩ => true
  | ⟨.getDeploymentLogs _ _ _, _⟩ => false
  | ⟨.send _, sent⟩ => sent
  | ⟨.pollSocket, found⟩ => !SocketPoll.gone found
  | _ => true

def offsetCheck : StreamOp → Bool
  | .getDeploymentLogs _ _ offset => decide (offset < 2 ^ 63)
  | _ => true

theorem undisturbed_check_sound {call : Call StreamFace} (passed : undisturbedCheck call = true) :
    Undisturbed call := by
  obtain ⟨op, answer⟩ := call
  cases op with
  | getDeployment id =>
      match answer, passed with
      | .ok (some status), _ => exact ⟨status, rfl⟩
  | getDeploymentLogs id limit offset =>
      match answer, passed with
      | .ok lines, _ => exact ⟨lines, rfl⟩
  | send text => exact passed
  | pollSocket =>
      have there : (!SocketPoll.gone answer) = true := passed
      exact Bool.not_eq_true' _ |>.mp there
  | _ => trivial

variable {history : List (Event StreamFace Bool)}

theorem offset_check_sound {op : StreamOp} (passed : offsetCheck op = true) :
    OffsetFits history op := by
  cases op with
  | getDeploymentLogs id limit offset =>
      unfold offsetCheck at passed
      exact Or.inl (of_decide_eq_true passed)
  | _ => trivial

/-- The executable form of the restriction. -/
def calmCheck (_ : List (Event StreamFace Bool)) (_ : Pool StreamFace Bool StreamEnd LogStore)
    (event : Event StreamFace Bool) : Bool :=
  event.thread || (undisturbedCheck ⟨event.op, event.answer⟩ && offsetCheck event.op)

theorem calm_check_sound {pool : Pool StreamFace Bool StreamEnd LogStore}
    {event : Event StreamFace Bool} (passed : calmCheck history pool event = true) :
    CalmFor false history pool event := by
  intro mine
  unfold calmCheck at passed
  rw [mine, Bool.false_or, Bool.and_eq_true] at passed
  exact ⟨undisturbed_check_sound passed.1, offset_check_sound passed.2⟩

/-- The line comes before the first page, the status after the first round. -/
def demoInTime : List Bool :=
  [false, true, false, false, false, false, false, true, false, false, false, false]

theorem demo_stream_closes :
    ∃ history pool lines,
      Pool.Trace streamSystem.can (CalmFor false) (demoStream 0) history pool ∧
        Closed ⟨1⟩ 0 false .running history lines := by
  have ran : (Pool.executeChecked streamSystem calmCheck (demoTurns demoInTime) []
      (demoStream 0)).bind (fun last => (last.2.threads false).returned) =
      some (.closed .running) := by decide +kernel
  obtain ⟨⟨history, pool⟩, executed, ended⟩ := Option.bind_eq_some_iff.mp ran
  have trace := Pool.Trace.of_checked (fun _ _ _ _ => trivial)
    (fun _ _ _ passed => calm_check_sound passed) Pool.Trace.start executed
  have streamed := deployment_logs_streamed ⟨1⟩ 0 3 false rfl rfl trace
  rw [returned_eq_some ended] at streamed
  obtain ⟨lines, closed⟩ := streamed
  exact ⟨history, pool, lines, trace, closed⟩

/-- The line is there when the handler starts. -/
def demoFar : List Bool := [true, false, false, false]

/-- From an offset of `2^63` the line at position zero is sent. -/
theorem far_offset_streams_first_line :
    ∃ history pool, Pool.Trace streamSystem.can
        (fun _ _ event => event.thread = false → Undisturbed ⟨event.op, event.answer⟩)
        (demoStream (2 ^ 63)) history pool ∧
      sentBy false history = ["compiling"] ∧
      ¬Streamed ⟨1⟩ (2 ^ 63) false history (pool.threads false) := by
  have ran : (Pool.executeChecked streamSystem
      (fun _ _ event => event.thread || undisturbedCheck ⟨event.op, event.answer⟩)
      (demoTurns demoFar) [] (demoStream (2 ^ 63))).map (fun last =>
        (sentBy false last.1, (storedLines ⟨1⟩ last.1).drop (2 ^ 63),
          (last.2.threads false).returned)) = some (["compiling"], [], none) := by decide +kernel
  obtain ⟨⟨history, pool⟩, executed, seen⟩ := Option.map_eq_some_iff.mp ran
  have trace := @Pool.Trace.of_checked _ _ _ _ _
    (fun _ _ event => event.thread = false → Undisturbed ⟨event.op, event.answer⟩)
    _ _ _ _ (fun _ _ _ _ => trivial) (fun _ _ event passed mine => by
      rw [mine, Bool.false_or] at passed
      exact undisturbed_check_sound passed) _ _ _ _ Pool.Trace.start executed
  obtain ⟨sent, rest⟩ := Prod.mk.inj seen
  obtain ⟨none, unended⟩ := Prod.mk.inj rest
  refine ⟨history, pool, trace, sent, ?_⟩
  dsimp only at sent none unended
  match program : pool.threads false with
  | .pure ended =>
      rw [program] at unended
      cases unended
  | .call op next =>
      intro streamed
      have front : sentBy false history <+: (storedLines ⟨1⟩ history).drop (2 ^ 63) := streamed
      rw [sent, none] at front
      cases List.prefix_nil.mp front

end Containr.Api.LogStream
