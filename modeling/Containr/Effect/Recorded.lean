import Containr.Effect.Serial

/-!
# The calls of one program

A program run with its calls written down. What a success leaves is said of its value and of
all calls made so far, those before it included.
-/

namespace Containr.Effect

variable {face : Interface} {Thread Value : Type}

abbrev Rule (face : Interface) : Type := List (Call face) → face.Op → Prop

theorem Program.Under.recorded {rule : Rule face} {allowed : face.Op → Prop}
    {program : Program face Value} {post : Value → Prop}
    (under : program.Under (fun _ _ => True) allowed post)
    (permitted : ∀ calls op, allowed op → rule calls op) (before : List (Call face)) :
    program.Always Recording rule (fun value after =>
      post value ∧ ∃ made, after = before ++ made ∧ ∀ call ∈ made, allowed call.1) before := by
  induction program generalizing before with
  | pure value =>
      apply Program.always_pure.mpr
      refine ⟨Program.under_pure.mp under, [], by simp, ?_⟩
      intro call member
      exact absurd member List.not_mem_nil
  | call op next ih =>
      rw [Program.under_call] at under
      apply Program.always_call.mpr
      refine ⟨permitted before op under.1, fun answer after recorded => ?_⟩
      rw [recorded]
      apply (ih answer (under.2 answer trivial) _).mono
      rintro value final ⟨held, made, extended, allowedAll⟩
      refine ⟨held, ⟨op, answer⟩ :: made, by rw [extended, List.append_assoc]; rfl, ?_⟩
      intro call member
      rcases List.mem_cons.mp member with first | later
      · rw [first]
        exact under.1
      · exact allowedAll call later

namespace Program

/-- With some calls made before, every call is as the rule says, and a success leaves the
value and all calls as `post` says. -/
def Leaves {Error : Type} (rule : Rule face) (program : ExceptT Error (Program face) Value)
    (calls : List (Call face)) (post : Value → List (Call face) → Prop) : Prop :=
  program.run.Always Recording rule
    (fun result after => ∀ value, result = .ok value → post value after) calls

section Leaves

variable {Error Other : Type} {rule : Rule face} {calls : List (Call face)}
  {middle : Value → List (Call face) → Prop} {post : Other → List (Call face) → Prop}
  {continuation : Value → ExceptT Error (Program face) Other}
  {program : ExceptT Error (Program face) Value}

theorem leaves_chain (first : Leaves rule program calls middle)
    (rest : ∀ value made, middle value made → Leaves rule (continuation value) made post) :
    Leaves rule (program >>= continuation) calls post := by
  apply first.run_bind
  intro result made held
  cases result with
  | ok value => exact rest value made (held value rfl)
  | error error =>
      intro value absurd
      cases absurd

theorem leaves_lift_chain {program : Program face Value}
    (first : program.Always Recording rule middle calls)
    (rest : ∀ value made, middle value made → Leaves rule (continuation value) made post) :
    Leaves rule (liftM program >>= continuation) calls post := by
  apply first.run_lift_bind
  exact rest

theorem leaves_return {value : Value} (held : middle value calls) :
    Leaves rule (Pure.pure value : ExceptT Error (Program face) Value) calls middle := by
  apply always_run_pure.mpr
  intro other same
  cases same
  exact held

theorem leaves_throw (error : Error) :
    Leaves rule (throw error : ExceptT Error (Program face) Value) calls middle := by
  apply always_run_throw.mpr
  intro value absurd
  cases absurd

theorem under_leaves {allowed : face.Op → Prop} {held : Value → Prop}
    (under : program.run.Under (fun _ _ => True) allowed (OnOk held))
    (permitted : ∀ calls op, allowed op → rule calls op) (calls : List (Call face)) :
    Leaves rule program calls fun value after =>
      held value ∧ ∃ made, after = calls ++ made ∧ ∀ call ∈ made, allowed call.1 := by
  apply (under.recorded permitted calls).mono
  rintro result after ⟨known, made⟩ value same
  rw [same] at known
  exact ⟨known, made⟩

theorem leaves_for_each {Item : Type} {body : Item → ExceptT Error (Program face) Unit}
    (inv : List Item → List (Call face) → Prop) (items : List Item) (start : inv [] calls)
    (step : ∀ before item after made, items = before ++ item :: after → inv before made →
      Leaves rule (body item) made fun _ more => inv (before ++ [item]) more) :
    Leaves rule (ExceptT.mk (forEach (fun item => (body item).run) items)) calls
      fun _ made => inv items made := by
  apply always_for_each inv items [] calls start
  · intro made held value _
    exact held
  · intro before item after made split held
    apply (step before item after made split held).mono
    intro result more left
    cases result with
    | ok value => exact left value rfl
    | error error =>
        intro value absurd
        cases absurd

end Leaves

end Program

namespace Pool

variable [DecidableEq Thread] {history : List (Event face Thread)}

end Pool

end Containr.Effect
