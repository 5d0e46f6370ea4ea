import Containr.Effect.Recorded

/-!
# Rules for calls

A rule says of each call what must have been called before it. Proved of a program from the
empty list, it holds of every event of a run in which the program is one of many threads.
-/

namespace Containr.Effect

variable {face : Interface} {Thread Value State : Type}

namespace Program

variable {rule : Rule face} {program : Program face Value} {calls : List (Call face)}
  {post : Value → List (Call face) → Prop}

theorem Always.made (always : program.Always Recording rule post calls) :
    program.Always Recording rule (fun value after => post value after ∧
      ∃ new, after = calls ++ new ∧ ∀ call ∈ new, ∃ before, rule before call.1) calls := by
  induction program generalizing calls with
  | pure value =>
      apply always_pure.mpr
      refine ⟨always_pure.mp always, [], by simp, ?_⟩
      exact fun call member => absurd member List.not_mem_nil
  | call op next ih =>
      rw [always_call] at always
      apply always_call.mpr
      refine ⟨always.1, fun answer after recorded => ?_⟩
      apply (ih answer (always.2 answer after recorded)).mono
      rintro value final ⟨held, new, grown, ruled⟩
      refine ⟨held, ⟨op, answer⟩ :: new, ?_, ?_⟩
      · rw [grown, recorded, List.append_assoc]
        rfl
      · intro call member
        rcases List.mem_cons.mp member with first | later
        · rw [first]
          exact ⟨calls, always.1⟩
        · exact ruled call later

variable {ok : State → face.Op → Prop} {can : Behaviour face State}

/-- With what the program returns whatever the answers are. -/
theorem Always.with_under {post : Value → State → Prop} {held : Value → Prop} {state : State}
    (always : program.Always can ok post state)
    (under : program.Under (fun _ _ => True) (fun _ => True) held) :
    program.Always can ok (fun value after => post value after ∧ held value) state := by
  induction program generalizing state with
  | pure value =>
      rw [always_pure] at always ⊢
      exact ⟨always, under_pure.mp under⟩
  | call op next ih =>
      rw [always_call] at always ⊢
      rw [under_call] at under
      exact ⟨always.1, fun answer after possible =>
        ih answer (always.2 answer after possible) (under.2 answer trivial)⟩

theorem Always.behind (front : List (Call face))
    (always : program.Always Recording (fun round op => rule (front ++ round) op)
      (fun value round => post value (front ++ round)) calls) :
    program.Always Recording rule post (front ++ calls) := by
  induction program generalizing calls with
  | pure value =>
      rw [always_pure] at always ⊢
      exact always
  | call op next ih =>
      rw [always_call] at always
      apply always_call.mpr
      refine ⟨always.1, fun answer after recorded => ?_⟩
      rw [recorded, List.append_assoc]
      exact ih answer (always.2 answer _ rfl)

theorem always_run_lift {Error : Type} {program : Program face Value}
    {post : Except Error Value → State → Prop} {state : State} :
    (liftM program : ExceptT Error (Program face) Value).run.Always can ok post state ↔
      program.Always can ok (fun value after => post (.ok value) after) state := by
  have lifted : (liftM program : ExceptT Error (Program face) Value).run =
      program.bind fun value => .pure (Except.ok value) := rfl
  rw [lifted, always_bind]
  simp only [always_pure]

theorem recorded_call {op : face.Op} {post : face.Answer op → List (Call face) → Prop}
    (permitted : rule calls op) (rest : ∀ answer, post answer (calls ++ [⟨op, answer⟩])) :
    (perform op).Always Recording rule post calls := by
  apply always_perform.mpr
  refine ⟨permitted, fun answer after recorded => ?_⟩
  rw [recorded]
  exact rest answer

/-- Whatever was called before, the program keeps to the rule. -/
def Obeys (rule : Rule face) (program : Program face Value) : Prop :=
  ∀ calls, program.Always Recording rule (fun _ _ => True) calls

section Obeys

variable {Other Error : Type}

theorem Obeys.bind {continuation : Value → Program face Other} (first : Obeys rule program)
    (rest : ∀ value, Obeys rule (continuation value)) :
    Obeys rule (program.bind continuation) := by
  intro calls
  exact (first calls).bind fun value made _ => rest value made

variable {continuation : Value → ExceptT Error (Program face) Other}

theorem Obeys.run_bind {program : ExceptT Error (Program face) Value}
    (first : Obeys rule program.run) (rest : ∀ value, Obeys rule (continuation value).run) :
    Obeys rule (program >>= continuation).run := by
  intro calls
  apply (first calls).run_bind
  intro result made _
  cases result with
  | ok value => exact rest value made
  | error error => trivial

theorem Obeys.run_lift_bind (first : Obeys rule program)
    (rest : ∀ value, Obeys rule (continuation value).run) :
    Obeys rule (liftM program >>= continuation : ExceptT Error (Program face) Other).run := by
  intro calls
  exact (first calls).run_lift_bind fun value made _ => rest value made

variable {allowed : face.Op → Prop}

theorem Calls.obeys (made : program.Calls allowed)
    (permitted : ∀ calls op, allowed op → rule calls op) : Obeys rule program := by
  intro calls
  have under : program.Under (fun _ _ => True) allowed fun _ => True := made.under
  exact (under.recorded permitted calls).mono fun _ _ _ => trivial

theorem calls_of_always {post : Value → List (Call face) → Prop}
    (always : program.Always Recording (fun _ op => allowed op) post calls) :
    program.Calls allowed := by
  induction program generalizing calls with
  | pure value => exact calls_pure value
  | call op next ih =>
      rw [always_call] at always
      exact calls_call.mpr ⟨always.1, fun answer => ih answer (always.2 answer _ rfl)⟩

end Obeys

end Program

namespace Pool

variable [DecidableEq Thread] {can : Behaviour face State}
  {meets : Restriction face Thread Value State} {start pool : Pool face Thread Value State}
  {history : List (Event face Thread)} {front back : List (Event face Thread)}
  {event : Event face Thread}

theorem Trace.cut_met (trace : Trace can meets start (front ++ event :: back) pool) :
    ∃ before after, Trace can meets start front before ∧ Step can before event after ∧
      meets front before event := by
  induction back using List.reverseRecOn generalizing pool with
  | nil =>
      obtain ⟨before, traced, taken, met⟩ := trace.last
      exact ⟨before, pool, traced, taken, met⟩
  | append_singleton back last ih =>
      have moved : front ++ event :: (back ++ [last]) = (front ++ event :: back) ++ [last] := by
        simp
      rw [moved] at trace
      obtain ⟨earlier, traced, -, -⟩ := trace.last
      exact ih traced

/-- A run stops at each of its events. -/
theorem Trace.cut (trace : Trace can meets start (front ++ event :: back) pool) :
    ∃ before after, Trace can meets start front before ∧ Step can before event after := by
  obtain ⟨before, after, traced, taken, -⟩ := trace.cut_met
  exact ⟨before, after, traced, taken⟩

/-- What a thread was answered was a possible answer. -/
theorem Trace.answered (trace : Trace can meets start history pool) {thread : Thread}
    {call : Call face} (member : call ∈ own thread history) :
    ∃ before after, can call.1 before call.2 after := by
  obtain ⟨event, filtered, rfl⟩ := List.mem_map.mp member
  obtain ⟨front, back, split⟩ := List.append_of_mem (List.mem_filter.mp filtered).1
  rw [split] at trace
  obtain ⟨before, after, -, taken⟩ := trace.cut
  obtain ⟨next, -, possible, -⟩ := taken.own
  exact ⟨_, _, possible⟩

theorem Trace.ruled {rule : Rule face}
    (program : (start.threads event.thread).Always Recording rule (fun _ _ => True) [])
    (trace : Trace can meets start (front ++ event :: back) pool) :
    rule (own event.thread front) event.op := by
  obtain ⟨before, after, traced, taken⟩ := trace.cut
  obtain ⟨next, ready, -, -⟩ := taken.own
  have here := program.reaches (traced.recorded event.thread)
  rw [ready, Program.always_call] at here
  exact here.1

end Pool

end Containr.Effect
