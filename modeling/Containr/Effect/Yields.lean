import Containr.Effect.Calls

/-!
# The values a program may return

`Yields` forgets the states: a value is one the program returns for some answers to its
calls. Whatever a run returns, under any behaviour, is such a value, so what holds of all of
them holds in every world.
-/

namespace Containr.Effect.Program

variable {face : Interface} {Value Other State Error : Type}

def Yields : Program face Value → Value → Prop
  | .pure value, result => result = value
  | .call _ next, result => ∃ answer, (next answer).Yields result

variable {value : Value}

@[simp] theorem yields_pure {result : Value} :
    (Program.pure value : Program face Value).Yields result ↔ result = value := Iff.rfl

@[simp] theorem yields_call {op : face.Op} {next : face.Answer op → Program face Value}
    {result : Value} :
    (Program.call op next).Yields result ↔ ∃ answer, (next answer).Yields result := Iff.rfl

attribute [irreducible] Yields

@[simp] theorem yields_perform (op : face.Op) (answer : face.Answer op) :
    (perform op).Yields answer := by
  unfold perform
  rw [yields_call]
  exact ⟨answer, yields_pure.mpr rfl⟩

variable {program : Program face Value}

@[simp] theorem yields_bind {continuation : Value → Program face Other} {result : Other} :
    (program.bind continuation).Yields result ↔
      ∃ value, program.Yields value ∧ (continuation value).Yields result := by
  induction program with
  | pure value => simp
  | call op next ih =>
      rw [call_bind, yields_call]
      constructor
      · intro found
        obtain ⟨answer, yields⟩ := found
        obtain ⟨value, first, rest⟩ := (ih answer).mp yields
        exact ⟨value, yields_call.mpr ⟨answer, first⟩, rest⟩
      · intro found
        obtain ⟨value, first, rest⟩ := found
        obtain ⟨answer, yields⟩ := yields_call.mp first
        exact ⟨answer, (ih answer).mpr ⟨value, yields, rest⟩⟩

variable {continuation : Value → ExceptT Error (Program face) Other}

variable {result : Except Error Other}

/-- The operator `?`. -/
theorem yields_run_bind {program : ExceptT Error (Program face) Value} :
    (program >>= continuation).run.Yields result ↔
      (∃ value, program.run.Yields (.ok value) ∧ (continuation value).run.Yields result) ∨
        ∃ error, program.run.Yields (.error error) ∧ result = .error error := by
  rw [ExceptT.run_bind, bind_eq, yields_bind]
  constructor
  · intro found
    obtain ⟨outcome, first, rest⟩ := found
    cases outcome with
    | ok value => exact Or.inl ⟨value, first, rest⟩
    | error error => exact Or.inr ⟨error, first, yields_pure.mp rest⟩
  · intro found
    rcases found with ⟨value, first, rest⟩ | ⟨error, first, same⟩
    · exact ⟨.ok value, first, rest⟩
    · exact ⟨.error error, first, yields_pure.mpr same⟩

/-- A chain that succeeds succeeds in each part. -/
theorem yields_ok_bind {program : ExceptT Error (Program face) Value} {result : Other} :
    (program >>= continuation).run.Yields (.ok result) ↔
      ∃ value, program.run.Yields (.ok value) ∧ (continuation value).run.Yields (.ok result) := by
  rw [yields_run_bind]
  constructor
  · intro found
    rcases found with ok | ⟨error, -, same⟩
    · exact ok
    · cases same
  · exact Or.inl

theorem yields_lift_bind :
    ((liftM program : ExceptT Error (Program face) Value) >>= continuation).run.Yields result ↔
      ∃ value, program.Yields value ∧ (continuation value).run.Yields result := by
  have lifted : ((liftM program : ExceptT Error (Program face) Value) >>= continuation).run =
      program.bind fun value => (continuation value).run :=
    ExceptT.run_bind_lift program continuation
  rw [lifted, yields_bind]

theorem yields_run_lift :
    (liftM program : ExceptT Error (Program face) Value).run.Yields (.ok value) ↔
      program.Yields value := by
  have lifted : (liftM program : ExceptT Error (Program face) Value).run =
      program.bind fun value => .pure (Except.ok value) := rfl
  rw [lifted, yields_bind]
  constructor
  · intro found
    obtain ⟨other, yields, same⟩ := found
    rw [Except.ok.inj (yields_pure.mp same)]
    exact yields
  · intro yields
    exact ⟨value, yields, yields_pure.mpr rfl⟩

theorem yields_run_pure {result : Except Error Value} :
    (Pure.pure value : ExceptT Error (Program face) Value).run.Yields result ↔
      result = .ok value := yields_pure

theorem yields_run_throw {error : Error} {result : Except Error Value} :
    (throw error : ExceptT Error (Program face) Value).run.Yields result ↔
      result = .error error := yields_pure

variable {can : Behaviour face State}

theorem Runs.yields {state final : State} (run : Runs can program state value final) :
    program.Yields value := by
  induction run with
  | pure value state => exact yields_pure.mpr rfl
  | call possible rest ih => exact yields_call.mpr ⟨_, ih⟩

variable {post : Value → Prop}

/-- What all values satisfy holds at the end of every run. -/
theorem ensures_of_yields (all : ∀ value, program.Yields value → post value) (state : State) :
    program.Ensures can (fun value _ => post value) state :=
  always_of_runs fun value _ run => all value run.yields

theorem exists_yields (answered : ∀ op : face.Op, Nonempty (face.Answer op))
    (program : Program face Value) : ∃ value, program.Yields value := by
  induction program with
  | pure value => exact ⟨value, yields_pure.mpr rfl⟩
  | call op next ih =>
      obtain ⟨answer⟩ := answered op
      obtain ⟨value, yields⟩ := ih answer
      exact ⟨value, yields_call.mpr ⟨answer, yields⟩⟩

theorem evaluate_bind (oracle : (op : face.Op) → face.Answer op) (program : Program face Value)
    (continuation : Value → Program face Other) :
    (program.bind continuation).evaluate oracle =
      (continuation (program.evaluate oracle)).evaluate oracle := by
  induction program with
  | pure value => rfl
  | call op next ih => exact ih (oracle op)

theorem yields_evaluate (oracle : (op : face.Op) → face.Answer op) (program : Program face Value) :
    program.Yields (program.evaluate oracle) := by
  induction program with
  | pure value => exact yields_pure.mpr rfl
  | call op next ih => exact yields_call.mpr ⟨oracle op, ih (oracle op)⟩

variable {oracle : (op : face.Op) → face.Answer op}

theorem runs_evaluate (possible : ∀ op state, ∃ after, can op state (oracle op) after)
    (program : Program face Value) (state : State) :
    ∃ final, Runs can program state (program.evaluate oracle) final := by
  induction program generalizing state with
  | pure value => exact ⟨state, .pure value state⟩
  | call op next ih =>
      obtain ⟨middle, answers⟩ := possible op state
      obtain ⟨final, rest⟩ := ih (oracle op) middle
      exact ⟨final, .call answers rest⟩

/-- What a program promises for expected answers holds of the value for such answers. -/
theorem Under.evaluated {expects : (op : face.Op) → face.Answer op → Prop}
    {allowed : face.Op → Prop} (under : program.Under expects allowed post)
    (expected : ∀ op, expects op (oracle op)) : post (program.evaluate oracle) := by
  induction program with
  | pure value => exact under_pure.mp under
  | call op next ih => exact ih (oracle op) ((under_call.mp under).2 _ (expected op))

end Containr.Effect.Program
