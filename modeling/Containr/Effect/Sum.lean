import Containr.Effect.Calls

/-!
# Programs over two interfaces

A program over one interface is a program over its sum with another. There it makes the
calls it makes alone, and it ensures what it ensures alone.
-/

namespace Containr.Effect

variable {first second : Interface} {Value Other State Part : Type}

def Interface.sum (first second : Interface) : Interface where
  Op := first.Op ⊕ second.Op
  Answer := Sum.elim first.Answer second.Answer

namespace Program

def inl : Program first Value → Program (first.sum second) Value
  | .pure value => .pure value
  | .call op next => @Program.call (first.sum second) Value (.inl op) fun answer =>
      (next answer).inl

variable {program : Program first Value}

theorem Calls.inl {allowed : first.Op → Prop} {within : (first.sum second).Op → Prop}
    (calls : program.Calls allowed) (included : ∀ op, allowed op → within (.inl op)) :
    (program.inl : Program (first.sum second) Value).Calls within := by
  induction program with
  | pure value => exact calls_pure value
  | call op next ih =>
      apply calls_call.mpr
      constructor
      · exact included op calls.head
      · intro answer
        exact ih answer (calls.next answer)

/-- What is ensured of a part of the state is ensured of that part of the whole. -/
theorem Always.inl {part : Behaviour first Part} {can : Behaviour (first.sum second) State}
    (view : State → Part) (sound : ∀ op before answer after, can (.inl op) before answer after →
      part op (view before) answer (view after)) {ok : Part → first.Op → Prop}
    {post : Value → Part → Prop} {state : State} (always : program.Always part ok post (view state)) :
    (program.inl : Program (first.sum second) Value).Always can (fun _ _ => True)
      (fun value after => post value (view after)) state := by
  induction program generalizing state with
  | pure value => exact always_pure.mpr (always_pure.mp always)
  | call op next ih =>
      obtain ⟨-, rest⟩ := always_call.mp always
      apply always_call.mpr
      constructor
      · trivial
      · intro answer after possible
        exact ih answer (rest answer (view after) (sound op state answer after possible))

end Program

end Containr.Effect
