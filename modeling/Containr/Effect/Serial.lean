import Containr.Effect.Pool
import Mathlib.Data.List.Forall2

/-!
# Validated writes are serializable

Threads share a store: they read it call by call and change it in at most one write
each; everything else is answered from outside. When at each write the reads made before
could be answered, in the state the write meets, so that the thread is led on in the same
way, the threads leave the store as they do running alone, one after the other, in the
order of their writes, with the same answers from outside.
-/

namespace Containr.Effect

variable {face : Interface} {Thread Value Other Error State : Type}

def Succeeds : Except Error Value → Prop
  | .ok _ => True
  | .error _ => False

abbrev Call (face : Interface) : Type := Sigma face.Answer

def Recording : Behaviour face (List (Call face)) := fun op before answer after =>
  after = before ++ [⟨op, answer⟩]

def Recorded (can : Behaviour face State) : Behaviour face (State × List (Call face)) :=
  fun op before answer after => can op before.1 answer after.1 ∧ Recording op before.2 answer after.2

theorem recorded {can : Behaviour face State} {op : face.Op} {before after : State}
    {answer : face.Answer op} (possible : can op before answer after) (calls : List (Call face)) :
    Recorded can op (before, calls) answer (after, calls ++ [⟨op, answer⟩]) := ⟨possible, rfl⟩

namespace Program

theorem Reaches.snoc {can : Behaviour face State} {program : Program face Value}
    {state middle final : State} {op : face.Op} {next : face.Answer op → Program face Value}
    {answer : face.Answer op} (reached : Reaches can program state (.call op next) middle)
    (possible : can op middle answer final) : Reaches can program state (next answer) final := by
  generalize shape : Program.call op next = left at reached
  induction reached with
  | here program state =>
      rw [← shape]
      exact .call possible (.here _ _)
  | call first rest ih => exact .call first (ih possible shape)

/-- A run with its calls written down is a run. -/
theorem Reaches.unrecorded {can : Behaviour face State} {program left : Program face Value}
    {before after : State × List (Call face)}
    (reached : Reaches (Recorded can) program before left after) :
    Reaches can program before.1 left after.1 := by
  induction reached with
  | here program state => exact .here program state.1
  | call first rest ih => exact .call first.1 ih

end Program

namespace Pool

variable [DecidableEq Thread]

def own (thread : Thread) (history : List (Event face Thread)) : List (Call face) :=
  (history.filter fun event => event.thread = thread).map fun event => ⟨event.op, event.answer⟩

theorem own_append_same (history : List (Event face Thread)) (event : Event face Thread) :
    own event.thread (history ++ [event]) =
      own event.thread history ++ [⟨event.op, event.answer⟩] := by
  simp [own]

theorem own_append_other {thread : Thread} (history : List (Event face Thread))
    {event : Event face Thread} (different : thread ≠ event.thread) :
    own thread (history ++ [event]) = own thread history := by
  simp [own, Ne.symm different]

/-- A thread stands where its own calls have led it. -/
theorem Trace.recorded {can : Behaviour face State} {meets : Restriction face Thread Value State}
    {start pool : Pool face Thread Value State} {history : List (Event face Thread)}
    (trace : Trace can meets start history pool) (thread : Thread) :
    Program.Reaches Recording (start.threads thread) [] (pool.threads thread)
      (own thread history) := by
  induction trace with
  | start => exact .here _ _
  | @step history pool after event before taken met ih =>
      by_cases same : thread = event.thread
      · obtain ⟨next, ready, -, continued⟩ := taken.own
        rw [same, ready] at ih
        rw [same, continued, own_append_same]
        exact ih.snoc rfl
      · rw [taken.other same, own_append_other history same]
        exact ih

end Pool

structure SharedStore (face : Interface) where
  reads : face.Op → Prop
  writes : face.Op → Prop
  /-- The answer to a write that went through. -/
  applied : (op : face.Op) → face.Answer op → Prop

namespace SharedStore

def Changes (store : SharedStore face) (op : face.Op) (answer : face.Answer op) : Prop :=
  store.writes op ∧ store.applied op answer

def Outside (store : SharedStore face) (op : face.Op) : Prop := ¬store.reads op ∧ ¬store.writes op

structure Serves (store : SharedStore face) (can : Behaviour face State) : Prop where
  still : ∀ op before answer after, ¬store.Changes op answer → can op before answer after →
    after = before
  outside : ∀ op before answer after, store.Outside op → can op before answer after →
    ∀ state, can op state answer state

def SameOutside (store : SharedStore face) (left right : Call face) : Prop :=
  left.1 = right.1 ∧ (¬store.reads left.1 → left = right)

/-- The calls lead the program to `left`, and in `state` each read among them can be
answered so that it leads on in the same way. -/
inductive Leads (store : SharedStore face) (can : Behaviour face State) (state : State) :
    Program face Value → List (Call face) → Program face Value → Prop where
  | here (program : Program face Value) : Leads store can state program [] program
  | read {op : face.Op} {next : face.Answer op → Program face Value} {answer again : face.Answer op}
      {calls : List (Call face)} {left : Program face Value} (isRead : store.reads op)
      (possible : can op state again state) (same : next again = next answer)
      (rest : Leads store can state (next answer) calls left) :
      Leads store can state (.call op next) (⟨op, answer⟩ :: calls) left
  | outside {op : face.Op} {next : face.Answer op → Program face Value} {answer : face.Answer op}
      {calls : List (Call face)} {left : Program face Value} (isOutside : store.Outside op)
      (possible : can op state answer state)
      (rest : Leads store can state (next answer) calls left) :
      Leads store can state (.call op next) (⟨op, answer⟩ :: calls) left

/-- Success comes only after a write that went through; under the promise about the
answers it comes then, and nothing more is read or written. -/
def WritesOnce (store : SharedStore face) (expects : (op : face.Op) → face.Answer op → Prop)
    (success : Value → Prop) : Program face Value → Prop
  | .pure value => ¬success value
  | .call op next => ∀ answer,
      (store.Changes op answer → (next answer).Under expects store.Outside success) ∧
      (¬store.Changes op answer → WritesOnce store expects success (next answer))

section WritesOnce

variable {store : SharedStore face} {expects : (op : face.Op) → face.Answer op → Prop}
  {success : Value → Prop}

theorem writes_once_pure (value : Value) :
    store.WritesOnce expects success (.pure value) ↔ ¬success value := Iff.rfl

theorem writes_once_call (op : face.Op) (next : face.Answer op → Program face Value) :
    store.WritesOnce expects success (.call op next) ↔ ∀ answer,
      (store.Changes op answer → (next answer).Under expects store.Outside success) ∧
      (¬store.Changes op answer → store.WritesOnce expects success (next answer)) := Iff.rfl

attribute [irreducible] WritesOnce

variable {continuation : Other → Program face Value} {program : Program face Other}

/-- Nothing is written before the continuation. -/
theorem writes_once_bind (calls : program.Calls fun op => ¬store.writes op)
    (rest : ∀ value, store.WritesOnce expects success (continuation value)) :
    store.WritesOnce expects success (program.bind continuation) := by
  induction program with
  | pure value => exact rest value
  | call op next ih =>
      rw [Program.call_bind, writes_once_call]
      intro answer
      exact ⟨fun changes => absurd changes.1 calls.head, fun _ => ih answer (calls.next answer)⟩

theorem WritesOnce.then {done : Other → Prop} (first : store.WritesOnce expects done program)
    (rest : ∀ value, done value → (continuation value).Under expects store.Outside success)
    (failed : ∀ value, ¬done value → store.WritesOnce expects success (continuation value)) :
    store.WritesOnce expects success (program.bind continuation) := by
  induction program with
  | pure value => exact failed value ((writes_once_pure value).mp first)
  | call op next ih =>
      rw [writes_once_call] at first
      rw [Program.call_bind, writes_once_call]
      intro answer
      refine ⟨fun changes => ?_, fun still => ih answer ((first answer).2 still)⟩
      exact ((first answer).1 changes).bind rest

end WritesOnce

section Requests

variable {store : SharedStore face} {expects : (op : face.Op) → face.Answer op → Prop}

variable {continuation : Other → ExceptT Error (Program face) Value}

variable {program : ExceptT Error (Program face) Other}

/-- Nothing is written by a call that only reads or asks. -/
theorem writes_once_run_bind (calls : program.run.Calls fun op => ¬store.writes op)
    (rest : ∀ value, store.WritesOnce expects Succeeds (continuation value).run) :
    store.WritesOnce expects Succeeds (program >>= continuation).run := by
  rw [ExceptT.run_bind]
  apply writes_once_bind calls
  intro result
  cases result with
  | ok value => exact rest value
  | error error => exact (writes_once_pure _).mpr not_false

theorem writes_once_run_lift_bind {program : Program face Other}
    (calls : program.Calls fun op => ¬store.writes op)
    (rest : ∀ value, store.WritesOnce expects Succeeds (continuation value).run) :
    store.WritesOnce expects Succeeds
      ((liftM program : ExceptT Error (Program face) Other) >>= continuation).run := by
  have lifted : ((liftM program : ExceptT Error (Program face) Other) >>= continuation).run =
      program.bind fun value => (continuation value).run :=
    ExceptT.run_bind_lift program continuation
  rw [lifted]
  exact writes_once_bind calls rest

/-- After the write nothing may fail any more. -/
theorem WritesOnce.run_then (first : store.WritesOnce expects Succeeds program.run)
    (rest : ∀ value, (continuation value).run.Under expects store.Outside Succeeds) :
    store.WritesOnce expects Succeeds (program >>= continuation).run := by
  rw [ExceptT.run_bind]
  apply first.then
  · intro result done
    cases result with
    | ok value => exact rest value
    | error error => exact done.elim
  · intro result failed
    cases result with
    | ok value => exact absurd trivial failed
    | error error => exact (writes_once_pure _).mpr not_false

end Requests

/-- The threads of the list run alone in turn, each to where it stands, with the answers
it got from outside. -/
inductive Serial (store : SharedStore face) (can : Behaviour face State)
    (programs left : Thread → Program face Value) (calls : Thread → List (Call face)) :
    List Thread → State → State → Prop where
  | none (state : State) : Serial store can programs left calls [] state state
  | next {order : List Thread} {first middle last : State} {thread : Thread}
      {alone : List (Call face)} (earlier : Serial store can programs left calls order first middle)
      (run : Program.Reaches (Recorded can) (programs thread) (middle, []) (left thread)
        (last, alone))
      (same : List.Forall₂ store.SameOutside alone (calls thread)) :
      Serial store can programs left calls (order ++ [thread]) first last

section Serial

variable {store : SharedStore face} {can : Behaviour face State}

theorem same_outside_rfl (call : Call face) : store.SameOutside call call := ⟨rfl, fun _ => rfl⟩

variable {state : State} {calls : List (Call face)} {program : Program face Value}

/-- Validated calls can be made again where nobody else runs. -/
theorem Leads.alone {left : Program face Value} (leads : Leads store can state program calls left)
    (before : List (Call face)) :
    ∃ again, Program.Reaches (Recorded can) program (state, before) left (state, before ++ again) ∧
      List.Forall₂ store.SameOutside again calls := by
  induction leads generalizing before with
  | here program => exact ⟨[], by simpa using .here program (state, before), .nil⟩
  | @read op next answer again calls left isRead possible same rest ih =>
      obtain ⟨others, run, agree⟩ := ih (before ++ [⟨op, again⟩])
      refine ⟨⟨op, again⟩ :: others, ?_, .cons ⟨rfl, fun notRead => absurd isRead notRead⟩ agree⟩
      rw [List.append_assoc, List.singleton_append, ← same] at run
      exact .call (recorded possible before) run
  | @outside op next answer calls left isOutside possible rest ih =>
      obtain ⟨others, run, agree⟩ := ih (before ++ [⟨op, answer⟩])
      refine ⟨⟨op, answer⟩ :: others, ?_, .cons (same_outside_rfl _) agree⟩
      rw [List.append_assoc, List.singleton_append] at run
      exact .call (recorded possible before) run

theorem Leads.snoc_read {op : face.Op} {next : face.Answer op → Program face Value}
    (leads : Leads store can state program calls (.call op next)) (isRead : store.reads op)
    {answer : face.Answer op} (possible : can op state answer state) :
    Leads store can state program (calls ++ [⟨op, answer⟩]) (next answer) := by
  generalize shape : Program.call op next = left at leads
  induction leads with
  | here program =>
      rw [← shape]
      exact .read isRead possible rfl (.here _)
  | read isFirst first same rest ih => exact .read isFirst first same (ih shape)
  | outside isFirst first rest ih => exact .outside isFirst first (ih shape)

theorem Leads.snoc_outside {op : face.Op} {next : face.Answer op → Program face Value}
    (leads : Leads store can state program calls (.call op next)) (isOutside : store.Outside op)
    {answer : face.Answer op} (possible : can op state answer state) :
    Leads store can state program (calls ++ [⟨op, answer⟩]) (next answer) := by
  generalize shape : Program.call op next = left at leads
  induction leads with
  | here program =>
      rw [← shape]
      exact .outside isOutside possible (.here _)
  | read isFirst first same rest ih => exact .read isFirst first same (ih shape)
  | outside isFirst first rest ih => exact .outside isFirst first (ih shape)

theorem Serial.map {programs left left' : Thread → Program face Value}
    {calls calls' : Thread → List (Call face)} {order : List Thread} {first last : State}
    (serial : store.Serial can programs left calls order first last)
    (moved : ∀ thread ∈ order, ∀ before after alone,
      Program.Reaches (Recorded can) (programs thread) (before, []) (left thread) (after, alone) →
      List.Forall₂ store.SameOutside alone (calls thread) →
      ∃ alone', Program.Reaches (Recorded can) (programs thread) (before, []) (left' thread)
        (after, alone') ∧ List.Forall₂ store.SameOutside alone' (calls' thread)) :
    store.Serial can programs left' calls' order first last := by
  induction serial with
  | none state => exact .none state
  | next earlier run same ih =>
      obtain ⟨alone', run', same'⟩ := moved _ (by simp) _ _ _ run same
      exact .next (ih fun thread member => moved thread (by simp [member])) run' same'

end Serial

section Validation

variable [DecidableEq Thread] {store : SharedStore face} {can : Behaviour face State}
  {expects : (op : face.Op) → face.Answer op → Prop} {success : Value → Prop}
  {start pool : Pool face Thread Value State} {history : List (Event face Thread)}

/-- A write that goes through meets a state in which the thread's reads still hold, and the
answers are as promised. -/
def Validated (store : SharedStore face) (can : Behaviour face State)
    (expects : (op : face.Op) → face.Answer op → Prop) (start : Pool face Thread Value State) :
    Pool.Restriction face Thread Value State := fun history pool event =>
  expects event.op event.answer ∧ (store.Changes event.op event.answer →
    store.Leads can pool.state (start.threads event.thread) (Pool.own event.thread history)
      (pool.threads event.thread))

variable {meets : Pool.Restriction face Thread Value State}

/-- Before its first read a thread stands where it stands in any state. -/
theorem leads_unread (serves : store.Serves can) (trace : Pool.Trace can meets start history pool)
    {thread : Thread} (unread : ∀ event ∈ history, event.thread = thread → store.Outside event.op)
    (state : State) : store.Leads can state (start.threads thread) (Pool.own thread history)
      (pool.threads thread) := by
  induction trace with
  | start => exact .here _
  | @step history pool after event before taken met ih =>
      have leads := ih fun event member => unread event (List.mem_append_left _ member)
      by_cases same : thread = event.thread
      · obtain ⟨next, ready, possible, continued⟩ := taken.own
        subst same
        have isOutside := unread event (List.mem_append_right _ List.mem_cons_self) rfl
        rw [continued, Pool.own_append_same]
        rw [ready] at leads
        exact leads.snoc_outside isOutside (serves.outside _ _ _ _ isOutside possible state)
      · rw [taken.other same, Pool.own_append_other history same]
        exact leads

/-- A thread that nobody has written behind since its first read stands where it stands
in the state that is met now. -/
theorem leads_undisturbed (serves : store.Serves can)
    (trace : Pool.Trace can meets start history pool) {thread : Thread}
    {earlier later : List (Event face Thread)} (split : history = earlier ++ later)
    (unread : ∀ event ∈ earlier, event.thread = thread → store.Outside event.op)
    (unwritten : ∀ event ∈ later, event.thread = thread → ¬store.writes event.op)
    (still : ∀ event ∈ later, ¬store.Changes event.op event.answer) :
    store.Leads can pool.state (start.threads thread) (Pool.own thread history)
      (pool.threads thread) := by
  induction trace generalizing later with
  | start => exact .here _
  | @step history pool after event before taken met ih =>
      rcases List.eq_nil_or_concat' later with rfl | ⟨others, last, rfl⟩
      · rw [List.append_nil] at split
        rw [← split] at unread
        exact leads_unread serves (before.step taken met) unread after.state
      · rw [← List.append_assoc] at split
        have parts := List.append_inj' split rfl
        have isLast : last = event := (List.singleton_inj.mp parts.2).symm
        have among : ∀ other ∈ others, other ∈ others ++ [last] :=
          fun other member => List.mem_append_left _ member
        have leads := ih parts.1 (fun other member => unwritten other (among other member))
          fun other member => still other (among other member)
        have inLast : event ∈ others ++ [last] := by simp [isLast]
        obtain ⟨next, ready, possible, continued⟩ := taken.own
        have same : after.state = pool.state :=
          serves.still _ _ _ _ (still event inLast) possible
        rw [same] at possible ⊢
        by_cases isIt : thread = event.thread
        · subst isIt
          have unwritten := unwritten event inLast rfl
          rw [continued, Pool.own_append_same]
          rw [ready] at leads
          by_cases isRead : store.reads event.op
          · exact leads.snoc_read isRead possible
          · exact leads.snoc_outside ⟨isRead, unwritten⟩ possible
        · rw [taken.other isIt, Pool.own_append_other history isIt]
          exact leads

theorem serializable (serves : store.Serves can)
    (programs : ∀ thread, store.WritesOnce expects success (start.threads thread))
    (trace : Pool.Trace can (store.Validated can expects start) start history pool) :
    ∃ order : List Thread, order.Nodup ∧
      store.Serial can start.threads pool.threads (fun thread => Pool.own thread history) order
        start.state pool.state ∧
      ∀ thread, (thread ∈ order → (pool.threads thread).Under expects store.Outside success) ∧
        (thread ∉ order → store.WritesOnce expects success (pool.threads thread)) := by
  induction trace with
  | start => exact ⟨[], .nil, .none _, fun thread => ⟨by simp, fun _ => programs thread⟩⟩
  | @step history pool after event before taken met ih =>
      obtain ⟨order, distinct, serial, phases⟩ := ih
      obtain ⟨expected, validated⟩ := met
      obtain ⟨next, ready, possible, continued⟩ := taken.own
      have others : ∀ thread ∈ order, thread ≠ event.thread → ∀ first last alone,
          Program.Reaches (Recorded can) (start.threads thread) (first, []) (pool.threads thread)
            (last, alone) →
          List.Forall₂ store.SameOutside alone (Pool.own thread history) →
          ∃ alone', Program.Reaches (Recorded can) (start.threads thread) (first, [])
            (after.threads thread) (last, alone') ∧
            List.Forall₂ store.SameOutside alone' (Pool.own thread (history ++ [event])) := by
        intro thread _ different first last alone run same
        rw [taken.other different, Pool.own_append_other history different]
        exact ⟨alone, run, same⟩
      have phaseOther : ∀ thread, thread ≠ event.thread →
          (thread ∈ order → (after.threads thread).Under expects store.Outside success) ∧
          (thread ∉ order → store.WritesOnce expects success (after.threads thread)) := by
        intro thread different
        rw [taken.other different]
        exact phases thread
      have extended : List.Forall₂ store.SameOutside [⟨event.op, event.answer⟩]
          [(⟨event.op, event.answer⟩ : Call face)] := .cons (same_outside_rfl _) .nil
      by_cases committed : event.thread ∈ order
      · -- after its write a thread only asks outside
        have own := (phases event.thread).1 committed
        rw [ready, Program.under_call] at own
        have same : after.state = pool.state :=
          serves.still _ _ _ _ (fun changes => own.1.2 changes.1) possible
        refine ⟨order, distinct, ?_, fun thread => ?_⟩
        · rw [same]
          apply serial.map
          intro thread member first last alone run agree
          by_cases isIt : thread = event.thread
          · subst isIt
            rw [ready] at run
            rw [continued, Pool.own_append_same]
            have again := serves.outside _ _ _ _ own.1 possible last
            exact ⟨alone ++ [⟨event.op, event.answer⟩], run.snoc (recorded again alone),
              List.rel_append agree extended⟩
          · exact others thread member isIt first last alone run agree
        · by_cases isIt : thread = event.thread
          · rw [isIt, continued]
            exact ⟨fun _ => own.2 event.answer expected, fun absent => absurd committed absent⟩
          · exact phaseOther thread isIt
      · have own := (phases event.thread).2 committed
        rw [ready, writes_once_call] at own
        have away : ∀ thread ∈ order, thread ≠ event.thread := fun thread member isIt =>
          committed (isIt ▸ member)
        have moved := serial.map fun thread member => others thread member (away thread member)
        by_cases changes : store.Changes event.op event.answer
        · refine ⟨order ++ [event.thread], ?_, ?_, fun thread => ?_⟩
          · apply List.nodup_append.mpr
            refine ⟨distinct, by simp, ?_⟩
            intro thread member other only
            rw [List.mem_singleton.mp only]
            exact away thread member
          · obtain ⟨again, run, agree⟩ := (validated changes).alone []
            rw [List.nil_append, ready] at run
            have whole := run.snoc (recorded possible again)
            apply moved.next
            · rw [continued]
              exact whole
            · rw [Pool.own_append_same]
              exact List.rel_append agree extended
          · by_cases isIt : thread = event.thread
            · rw [isIt, continued]
              exact ⟨fun _ => (own event.answer).1 changes, fun absent => absurd (by simp) absent⟩
            · have known := phaseOther thread isIt
              simpa [isIt] using known
        · have same : after.state = pool.state := serves.still _ _ _ _ changes possible
          refine ⟨order, distinct, by rw [same]; exact moved, fun thread => ?_⟩
          by_cases isIt : thread = event.thread
          · rw [isIt, continued]
            exact ⟨fun member => absurd member committed, fun _ => (own event.answer).2 changes⟩
          · exact phaseOther thread isIt

end Validation

end SharedStore

end Containr.Effect
