import Containr.Effect.Machine

/-!
# Runs with an observer

An observer keeps a record of what the calls of a program are answered. It changes nothing: a
run with the record beside it is a run, and what is ensured without the record is ensured with
it.
-/

namespace Containr.Effect

variable {face : Interface} {Value State Seen : Type}

abbrev Observer (face : Interface) (Seen : Type) : Type :=
  Seen → (op : face.Op) → face.Answer op → Seen

def Machine.observed (machine : Machine face State) (observe : Observer face Seen) :
    Machine face (State × Seen) where
  Choice := machine.Choice
  exec op choice state :=
    let result := machine.exec op choice state.1
    (result.1, result.2, observe state.2 op result.1)
  Admits op choice state := machine.Admits op choice state.1

theorem observed_iff {machine : Machine face State} {observe : Observer face Seen} {op : face.Op}
    {before after : State × Seen} {answer : face.Answer op} :
    (machine.observed observe).can op before answer after ↔
      machine.can op before.1 answer after.1 ∧ after.2 = observe before.2 op answer := by
  constructor
  · intro possible
    obtain ⟨choice, admitted, result⟩ := possible
    have answered : (machine.exec op choice before.1).1 = answer := congrArg Prod.fst result
    have reached : ((machine.exec op choice before.1).2,
        observe before.2 op (machine.exec op choice before.1).1) = after :=
      congrArg Prod.snd result
    rw [answered] at reached
    rw [← reached]
    exact ⟨⟨choice, admitted, Prod.ext answered rfl⟩, rfl⟩
  · intro possible
    obtain ⟨⟨choice, admitted, result⟩, record⟩ := possible
    refine ⟨choice, admitted, ?_⟩
    have answered : (machine.exec op choice before.1).1 = answer := congrArg Prod.fst result
    have reached : (machine.exec op choice before.1).2 = after.1 := congrArg Prod.snd result
    have shape : (machine.observed observe).exec op choice before =
        ((machine.exec op choice before.1).1, (machine.exec op choice before.1).2,
          observe before.2 op (machine.exec op choice before.1).1) := rfl
    rw [shape, answered, reached, ← record]

instance (machine : Machine face State) (observe : Observer face Seen)
    [decide : ∀ (op : face.Op) (choice : machine.Choice op) (state : State),
      Decidable (machine.Admits op choice state)] (op : face.Op)
    (choice : (machine.observed observe).Choice op) (state : State × Seen) :
    Decidable ((machine.observed observe).Admits op choice state) := decide op choice state.1

namespace Program

variable {machine : Machine face State} {observe : Observer face Seen}
  {ok : State → face.Op → Prop}

theorem Always.observed {program : Program face Value} {post : Value → State → Prop}
    {state : State × Seen} (always : program.Always machine.can ok post state.1) :
    program.Always (machine.observed observe).can (fun before op => ok before.1 op)
      (fun value after => post value after.1) state := by
  induction program generalizing state with
  | pure value => exact always_pure.mpr (always_pure.mp always)
  | call op next ih =>
      obtain ⟨permitted, rest⟩ := always_call.mp always
      apply always_call.mpr
      refine ⟨permitted, fun answer after possible => ih answer ?_⟩
      exact rest answer after.1 (observed_iff.mp possible).1

theorem Runs.unobserved {program : Program face Value} {state final : State × Seen} {value : Value}
    (run : Runs (machine.observed observe).can program state value final) :
    Runs machine.can program state.1 value final.1 := by
  induction run with
  | pure value state => exact .pure value state.1
  | call possible rest ih => exact .call (observed_iff.mp possible).1 ih

end Program

end Containr.Effect
