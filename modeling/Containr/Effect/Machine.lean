import Containr.Effect.Program

/-!
# Machines and sequential runs

A machine answers each operation by a function of the state and of a choice
made outside the program: a fault, a reading of the clock, a fresh identifier.
`Runs` collects the complete sequential runs, `Reaches` the unfinished ones (the
points at which a process may die), and `run` is the executable run under a
policy that fixes the choice of every call.
-/

namespace Containr.Effect

variable {face : Interface} {Value Other State : Type}

structure Machine (face : Interface) (State : Type) where
  Choice : face.Op → Type
  exec : (op : face.Op) → Choice op → State → face.Answer op × State
  /-- The choices the outside world can make in a state. -/
  Admits : (op : face.Op) → Choice op → State → Prop

namespace Machine

def can (machine : Machine face State) : Behaviour face State :=
  fun op state answer after =>
    ∃ choice, machine.Admits op choice state ∧ machine.exec op choice state = (answer, after)

def only (machine : Machine face State)
    (allowed : (op : face.Op) → machine.Choice op → State → Prop) : Machine face State where
  Choice := machine.Choice
  exec := machine.exec
  Admits op choice state := machine.Admits op choice state ∧ allowed op choice state

abbrev Policy (machine : Machine face State) : Type :=
  (op : face.Op) → State → machine.Choice op

end Machine

namespace Program

inductive Runs (can : Behaviour face State) :
    Program face Value → State → Value → State → Prop where
  | pure (value : Value) (state : State) : Runs can (.pure value) state value state
  | call {op : face.Op} {next : face.Answer op → Program face Value} {before middle final : State}
      {answer : face.Answer op} {value : Value} (possible : can op before answer middle)
      (rest : Runs can (next answer) middle value final) :
      Runs can (.call op next) before value final

inductive Reaches (can : Behaviour face State) :
    Program face Value → State → Program face Value → State → Prop where
  | here (program : Program face Value) (state : State) : Reaches can program state program state
  | call {op : face.Op} {next : face.Answer op → Program face Value} {before middle final : State}
      {answer : face.Answer op} {left : Program face Value} (possible : can op before answer middle)
      (rest : Reaches can (next answer) middle left final) :
      Reaches can (.call op next) before left final

variable {can : Behaviour face State} {ok : State → face.Op → Prop} {value : Value} {final : State}
  {post : Value → State → Prop} {state : State} {program : Program face Value}

theorem Always.runs (always : program.Always can ok post state)
    (run : Runs can program state value final) : post value final := by
  induction run with
  | pure value state => exact always_pure.mp always
  | call possible rest ih =>
      rw [always_call] at always
      exact ih (always.2 _ _ possible)

theorem always_of_runs (runs : ∀ value final, Runs can program state value final → post value final) :
    program.Always can (fun _ _ => True) post state := by
  induction program generalizing state with
  | pure value =>
      rw [always_pure]
      exact runs value state (.pure value state)
  | call op next ih =>
      rw [always_call]
      refine ⟨trivial, fun answer after possible => ih answer ?_⟩
      intro value final rest
      exact runs value final (.call possible rest)

theorem Always.reaches (always : program.Always can ok post state) {left : Program face Value}
    (reached : Reaches can program state left final) : left.Always can ok post final := by
  induction reached with
  | here program state => exact always
  | call possible rest ih =>
      rw [always_call] at always
      exact ih (always.2 _ _ possible)

variable {inv : State → Prop}

theorem Reaches.invariant {left : Program face Value}
    (reached : Reaches can program state left final)
    (keeps : ∀ op before answer after, inv before → can op before answer after → inv after)
    (start : inv state) : inv final := by
  induction reached with
  | here program state => exact start
  | call possible rest ih => exact ih (keeps _ _ _ _ start possible)

theorem Runs.invariant (run : Runs can program state value final)
    (keeps : ∀ op before answer after, inv before → can op before answer after → inv after)
    (start : inv state) : inv final := by
  induction run with
  | pure value state => exact start
  | call possible rest ih => exact ih (keeps _ _ _ _ start possible)

theorem always_of_reaches (reached : ∀ left final, Reaches can program state left final → inv final) :
    program.Always can (fun before _ => inv before) (fun _ after => inv after) state := by
  induction program generalizing state with
  | pure value =>
      rw [always_pure]
      exact reached _ _ (.here _ _)
  | call op next ih =>
      rw [always_call]
      refine ⟨reached _ _ (.here _ _), fun answer after possible => ih answer ?_⟩
      intro left final rest
      exact reached left final (.call possible rest)

/-- What holds at every call and at the end holds at the start. -/
theorem Always.here
    (always : program.Always can (fun before _ => inv before) (fun _ after => inv after) state) :
    inv state := by
  cases program with
  | pure value => exact always_pure.mp always
  | call op next => exact (always_call.mp always).1

theorem Always.after_run {continuation : Value → Program face Other} {post : Other → State → Prop}
    (always : (program.bind continuation).Always can ok post state)
    (run : Runs can program state value final) : (continuation value).Always can ok post final :=
  (always_bind.mp always).runs run

/-- Each item of a loop gets its turn, in a state that other runs lead to. -/
theorem Always.for_all_item {Item : Type} {body : Item → Program face Unit} {kept : State → Prop}
    {items : List Item}
    (always : (forAll body items).Always can (fun before _ => inv before) (fun _ after => inv after)
      state) (runs : ∀ item state, ∃ final, Runs can (body item) state () final)
    (keeps : ∀ op before answer after, kept before → can op before answer after → kept after)
    (start : kept state) {item : Item} (member : item ∈ items) : ∃ turn, kept turn ∧
      (body item).Always can (fun before _ => inv before) (fun _ after => inv after) turn := by
  induction items generalizing state with
  | nil => cases member
  | cons first rest ih =>
      rcases List.mem_cons.mp member with same | later
      · refine ⟨state, start, ?_⟩
        rw [same]
        exact (always_bind.mp always).mono fun _ _ rest => rest.here
      · obtain ⟨final, run⟩ := runs first state
        exact ih (always.after_run run) (run.invariant keeps start) later

/-- A run whose calls are all permitted is a run of every behaviour that has those
calls. -/
theorem Always.transfer {other : Behaviour face State} (always : program.Always can ok post state)
    (run : Runs can program state value final)
    (included : ∀ op before answer after, ok before op → can op before answer after →
      other op before answer after) : Runs other program state value final := by
  induction run with
  | pure value state => exact .pure value state
  | call possible rest ih =>
      rw [always_call] at always
      exact .call (included _ _ _ _ always.1 possible) (ih (always.2 _ _ possible))

def run (machine : Machine face State) (policy : machine.Policy) :
    Program face Value → State → Value × State
  | .pure value, state => (value, state)
  | .call op next, state =>
      let result := machine.exec op (policy op state) state
      (next result.1).run machine policy result.2

variable (machine : Machine face State) (policy : machine.Policy)

@[simp] theorem run_pure (value : Value) (state : State) :
    (Program.pure value : Program face Value).run machine policy state =
      (value, state) := rfl

theorem run_bind (program : Program face Value) (continuation : Value → Program face Other)
    (state : State) : (program.bind continuation).run machine policy state =
      (continuation (program.run machine policy state).1).run machine policy
        (program.run machine policy state).2 := by
  induction program generalizing state with
  | pure value => rfl
  | call op next ih => exact ih _ _

theorem runs_run (admitted : ∀ op state, machine.Admits op (policy op state) state)
    (program : Program face Value) (state : State) :
    Runs machine.can program state (program.run machine policy state).1
      (program.run machine policy state).2 := by
  induction program generalizing state with
  | pure value => exact .pure value state
  | call op next ih => exact .call ⟨policy op state, admitted op state, rfl⟩ (ih _ _)

def runChecked (machine : Machine face State)
    [∀ op choice state, Decidable (machine.Admits op choice state)] (policy : machine.Policy) :
    Program face Value → State → Option (Value × State)
  | .pure value, state => some (value, state)
  | .call op next, state =>
      if machine.Admits op (policy op state) state then
        let result := machine.exec op (policy op state) state
        (next result.1).runChecked machine policy result.2
      else none

theorem Runs.of_checked {machine : Machine face State}
    [∀ op choice state, Decidable (machine.Admits op choice state)] {policy : machine.Policy}
    {program : Program face Value} {state final : State} {value : Value}
    (checked : program.runChecked machine policy state = some (value, final)) :
    Runs machine.can program state value final := by
  induction program generalizing state with
  | pure result =>
      cases checked
      exact .pure value final
  | call op next ih =>
      unfold runChecked at checked
      split_ifs at checked with admitted
      exact .call ⟨policy op state, admitted, rfl⟩ (ih _ checked)

end Program

end Containr.Effect
