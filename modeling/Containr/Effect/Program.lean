import Mathlib.Data.List.Basic
import Mathlib.Logic.Function.Basic

/-!
# Programs as trees of calls

A program is a finitely deep tree: it either ends with a value or calls one
operation of an interface and continues with the answer. Nothing is said here
about what the operations do. The same tree is read in three ways: run alone
from a state, run step by step beside other programs, and cut off at a call.
`Always` is the one induction all three share.
-/

namespace Containr.Effect

theorem ok_of_to_option {Failure Result : Type} {outcome : Except Failure Result} {value : Result}
    (found : outcome.toOption = some value) : outcome = .ok value := by
  cases outcome with
  | ok other => exact congrArg Except.ok (Option.some.inj found)
  | error error => cases found

theorem except_bind_ok {Error Value Other : Type} {first : Except Error Value}
    {next : Value → Except Error Other} {result : Other} (ok : (first >>= next) = .ok result) :
    ∃ value, first = .ok value ∧ next value = .ok result := by
  cases first with
  | error error => cases ok
  | ok value => exact ⟨value, rfl, ok⟩

structure Interface where
  Op : Type
  Answer : Op → Type

inductive Program (face : Interface) (Value : Type) : Type where
  | pure (value : Value)
  | call (op : face.Op) (next : face.Answer op → Program face Value)

variable {face : Interface} {Value Other State Error : Type}

namespace Program

def bind : Program face Value → (Value → Program face Other) → Program face Other
  | .pure value, continuation => continuation value
  | .call op next, continuation => .call op fun answer => (next answer).bind continuation

def perform (op : face.Op) : Program face (face.Answer op) := .call op .pure

instance : Monad (Program face) where
  pure := .pure
  bind := bind

theorem bind_pure_right (program : Program face Value) : program.bind .pure = program := by
  induction program with
  | pure value => rfl
  | call op next ih => exact congrArg (Program.call op) (funext ih)

theorem bind_assoc {Third : Type} (program : Program face Value)
    (first : Value → Program face Other) (second : Other → Program face Third) :
    (program.bind first).bind second = program.bind fun value => (first value).bind second := by
  induction program with
  | pure value => rfl
  | call op next ih => exact congrArg (Program.call op) (funext ih)

instance : LawfulMonad (Program face) :=
  LawfulMonad.mk' (Program face) bind_pure_right (fun _ _ => rfl) bind_assoc

@[simp] theorem pure_eq (value : Value) :
    (Pure.pure value : Program face Value) = .pure value := rfl

@[simp] theorem bind_eq (program : Program face Value) (continuation : Value → Program face Other) :
    program >>= continuation = program.bind continuation := rfl

@[simp] theorem pure_bind (value : Value) (continuation : Value → Program face Other) :
    (Program.pure value : Program face Value).bind continuation = continuation value := rfl

@[simp] theorem call_bind (op : face.Op) (next : face.Answer op → Program face Value)
    (continuation : Value → Program face Other) :
    (Program.call op next).bind continuation =
      .call op fun answer => (next answer).bind continuation := rfl

@[simp] theorem perform_bind (op : face.Op)
    (continuation : face.Answer op → Program face Other) :
    (perform op).bind continuation = .call op continuation := rfl

/-- The operator `?` inside a program that goes on with the result. -/
theorem run_bind_bind {Third : Type} (program : ExceptT Error (Program face) Value)
    (first : Value → ExceptT Error (Program face) Other)
    (second : Except Error Other → Program face Third) :
    (program >>= first).run.bind second = program.run.bind fun result =>
      match result with
      | .ok value => (first value).run.bind second
      | .error error => second (.error error) := by
  rw [ExceptT.run_bind, bind_eq, bind_assoc]
  apply congrArg program.run.bind
  funext result
  cases result with
  | ok value => rfl
  | error error => rfl

theorem run_lift_bind_bind {Third : Type} (program : Program face Value)
    (first : Value → ExceptT Error (Program face) Other)
    (second : Except Error Other → Program face Third) :
    ((liftM program : ExceptT Error (Program face) Value) >>= first).run.bind second =
      program.bind fun value => (first value).run.bind second := by
  have lifted : ((liftM program : ExceptT Error (Program face) Value) >>= first).run =
      program.bind fun value => (first value).run :=
    ExceptT.run_bind_lift program first
  rw [lifted, bind_assoc]

def returned : Program face Value → Option Value
  | .pure value => some value
  | .call _ _ => none

theorem returned_eq_some {program : Program face Value} {value : Value}
    (ended : program.returned = some value) : program = .pure value := by
  cases program with
  | pure result => exact congrArg Program.pure (Option.some.inj ended)
  | call op next => cases ended

/-- Runs `body` on each item in turn, carrying the accumulator, and leaves the
loop at the first error. The accumulator survives the error: it models a
`&mut` argument that the caller still sees after an early return. -/
def iterate {Item Acc : Type} (body : Acc → Item → Program face (Except Error Unit × Acc)) :
    List Item → Acc → Program face (Except Error Unit × Acc)
  | [], acc => .pure (.ok (), acc)
  | item :: items, acc => (body acc item).bind fun result =>
      match result.1 with
      | .ok () => iterate body items result.2
      | .error error => .pure (.error error, result.2)

/-- A loop with an accumulator whose body cannot fail. -/
def fold {Item Acc : Type} (body : Acc → Item → Program face Acc) :
    List Item → Acc → Program face Acc
  | [], acc => .pure acc
  | item :: items, acc => (body acc item).bind fun next => fold body items next

/-- A loop without accumulator that stops at the first error. -/
def forEach {Item : Type} (body : Item → Program face (Except Error Unit)) :
    List Item → Program face (Except Error Unit)
  | [] => .pure (.ok ())
  | item :: items => (body item).bind fun result =>
      match result with
      | .ok () => forEach body items
      | .error error => .pure (.error error)

/-- A loop whose body cannot fail. -/
def forAll {Item : Type} (body : Item → Program face Unit) : List Item → Program face Unit
  | [] => .pure ()
  | item :: items => (body item).bind fun _ => forAll body items

end Program

abbrev Behaviour (face : Interface) (State : Type) : Type :=
  (op : face.Op) → State → face.Answer op → State → Prop

/-- Whatever the operations answer, every call made satisfies `ok` in the state
in which it is made, and the program ends in `post`. -/
def Program.Always (can : Behaviour face State) (ok : State → face.Op → Prop) :
    Program face Value → (Value → State → Prop) → State → Prop
  | .pure value, post, state => post value state
  | .call op next, post, state => ok state op ∧
      ∀ answer after, can op state answer after → (next answer).Always can ok post after

/-- Whatever the operations answer, the program ends in `post`. -/
abbrev Program.Ensures (can : Behaviour face State) (program : Program face Value)
    (post : Value → State → Prop) (state : State) : Prop :=
  program.Always can (fun _ _ => True) post state

namespace Program

variable {can : Behaviour face State} {ok : State → face.Op → Prop} {state : State}

@[simp] theorem always_pure {value : Value} {post : Value → State → Prop} :
    (Program.pure value : Program face Value).Always can ok post state ↔ post value state :=
  Iff.rfl

@[simp] theorem always_call {op : face.Op} {next : face.Answer op → Program face Value}
    {post : Value → State → Prop} : (Program.call op next).Always can ok post state ↔
      ok state op ∧ ∀ answer after, can op state answer after →
        (next answer).Always can ok post after :=
  Iff.rfl

-- a program is never evaluated to see what it does; the rules below do that
attribute [irreducible] Always

theorem always_perform {op : face.Op} {post : face.Answer op → State → Prop} {state : State} :
    (perform op).Always can ok post state ↔
      ok state op ∧ ∀ answer after, can op state answer after → post answer after := by
  unfold perform
  simp only [always_call, always_pure]

@[simp] theorem always_bind {program : Program face Value}
    {continuation : Value → Program face Other} {post : Other → State → Prop} {state : State} :
    (program.bind continuation).Always can ok post state ↔
      program.Always can ok
        (fun value after => (continuation value).Always can ok post after) state := by
  induction program generalizing state with
  | pure value => rw [pure_bind, always_pure]
  | call op next ih => simp only [call_bind, always_call, ih]

variable {program : Program face Value}

theorem Always.mono {post weaker : Value → State → Prop} (always : program.Always can ok post state)
    (weaken : ∀ value after, post value after → weaker value after) :
    program.Always can ok weaker state := by
  induction program generalizing state with
  | pure value =>
      rw [always_pure] at always ⊢
      exact weaken value state always
  | call op next ih =>
      rw [always_call] at always ⊢
      exact ⟨always.1, fun answer after possible => ih answer (always.2 answer after possible)⟩

theorem Always.restrict {post : Value → State → Prop} {fewer : Behaviour face State}
    {demand : State → face.Op → Prop} (always : program.Always can ok post state)
    (included : ∀ op before answer after, fewer op before answer after →
      can op before answer after) (weaken : ∀ before op, ok before op → demand before op) :
    program.Always fewer demand post state := by
  induction program generalizing state with
  | pure value =>
      rw [always_pure] at always ⊢
      exact always
  | call op next ih =>
      rw [always_call] at always ⊢
      refine ⟨weaken state op always.1, fun answer after possible => ?_⟩
      exact ih answer (always.2 answer after (included op state answer after possible))

theorem Always.and {first second : Value → State → Prop} (holds : program.Always can ok first state)
    (too : program.Always can ok second state) :
    program.Always can ok (fun value after => first value after ∧ second value after) state := by
  induction program generalizing state with
  | pure value =>
      rw [always_pure] at holds too ⊢
      exact ⟨holds, too⟩
  | call op next ih =>
      rw [always_call] at holds too ⊢
      refine ⟨holds.1, fun answer after possible => ?_⟩
      exact ih answer (holds.2 answer after possible) (too.2 answer after possible)

theorem always_of_step {inv : State → Prop} (program : Program face Value)
    (keeps : ∀ op before answer after, inv before → can op before answer after → inv after)
    {state : State} (start : inv state) :
    program.Always can (fun before _ => inv before) (fun _ after => inv after) state := by
  induction program generalizing state with
  | pure value =>
      rw [always_pure]
      exact start
  | call op next ih =>
      rw [always_call]
      exact ⟨start, fun answer after possible => ih answer (keeps op state answer after start possible)⟩

/-- A state predicate that the permitted calls keep holds at every call. -/
theorem Always.guard {program : Program face Value} {post : Value → State → Prop} {state : State}
    {inv : State → Prop} (always : program.Always can ok post state)
    (keeps : ∀ op before answer after, ok before op → inv before → can op before answer after →
      inv after) (start : inv state) :
    program.Always can (fun before op => ok before op ∧ inv before)
      (fun value after => post value after ∧ inv after) state := by
  induction program generalizing state with
  | pure value =>
      rw [always_pure] at always ⊢
      exact ⟨always, start⟩
  | call op next ih =>
      rw [always_call] at always ⊢
      refine ⟨⟨always.1, start⟩, fun answer after possible => ?_⟩
      exact ih answer (always.2 answer after possible)
        (keeps op state answer after always.1 start possible)

variable {continuation : Value → ExceptT Error (Program face) Other}

/-- The operator `?`: an error ends the function with that error. -/
@[simp] theorem always_run_bind {program : ExceptT Error (Program face) Value}
    {post : Except Error Other → State → Prop} :
    (program >>= continuation).run.Always can ok post state ↔
      program.run.Always can ok (fun result after =>
        match result with
        | .ok value => (continuation value).run.Always can ok post after
        | .error error => post (.error error) after) state := by
  rw [ExceptT.run_bind, bind_eq, always_bind]
  apply iff_of_eq
  apply congrArg (fun after => program.run.Always can ok after state)
  funext result after
  cases result with
  | ok value => rfl
  | error error => exact propext always_pure

/-- A call whose result is used as it is, error or not. -/
@[simp] theorem always_run_lift_bind {post : Except Error Other → State → Prop} :
    ((liftM program : ExceptT Error (Program face) Value) >>= continuation).run.Always
        can ok post state ↔
      program.Always can ok
        (fun value after => (continuation value).run.Always can ok post after) state := by
  have lifted : ((liftM program : ExceptT Error (Program face) Value) >>= continuation).run =
      program.bind fun value => (continuation value).run :=
    ExceptT.run_bind_lift program continuation
  rw [lifted, always_bind]

section Rules

variable {middle : Value → State → Prop} {post : Other → State → Prop} {state : State}

theorem Always.bind {program : Program face Value} {continuation : Value → Program face Other}
    (first : program.Always can ok middle state)
    (rest : ∀ value after, middle value after → (continuation value).Always can ok post after) :
    (program.bind continuation).Always can ok post state := always_bind.mpr (first.mono rest)

variable {continuation : Value → ExceptT Error (Program face) Other}

theorem Always.run_lift_bind {program : Program face Value}
    {post : Except Error Other → State → Prop} (first : program.Always can ok middle state)
    (rest : ∀ value after, middle value after →
      (continuation value).run.Always can ok post after) :
    ((liftM program : ExceptT Error (Program face) Value) >>= continuation).run.Always
      can ok post state := always_run_lift_bind.mpr (first.mono rest)

theorem Always.run_bind {program : ExceptT Error (Program face) Value}
    {middle : Except Error Value → State → Prop} {post : Except Error Other → State → Prop}
    (first : program.run.Always can ok middle state) (rest : ∀ result after, middle result after →
      match result with
      | .ok value => (continuation value).run.Always can ok post after
      | .error error => post (.error error) after) :
    (program >>= continuation).run.Always can ok post state := always_run_bind.mpr (first.mono rest)

end Rules

variable {post : Except Error Value → State → Prop}

@[simp] theorem always_run_pure {value : Value} :
    (Pure.pure value : ExceptT Error (Program face) Value).run.Always can ok post state ↔
      post (.ok value) state := always_pure

@[simp] theorem always_run_throw {error : Error} :
    (throw error : ExceptT Error (Program face) Value).run.Always can ok post state ↔
      post (.error error) state := always_pure

@[simp] theorem always_run_mk {program : Program face (Except Error Value)} :
    (ExceptT.mk program : ExceptT Error (Program face) Value).run.Always can ok post state ↔
      program.Always can ok post state := Iff.rfl

theorem always_congr {post other : Value → State → Prop}
    (same : ∀ value after, post value after ↔ other value after) (state : State) :
    program.Always can ok post state ↔ program.Always can ok other state := by
  constructor
  · intro always
    exact always.mono fun value after => (same value after).mp
  · intro always
    exact always.mono fun value after => (same value after).mpr

/-- The result is changed by a function, as by `map_err`. -/
theorem always_run_map {Fault : Type} {program : Program face (Except Fault Value)}
    {change : Except Fault Value → Except Error Value} :
    (ExceptT.mk (program.bind fun result => .pure (change result)) :
        ExceptT Error (Program face) Value).run.Always can ok post state ↔
      program.Always can ok (fun result after => post (change result) after) state := by
  rw [always_run_mk, always_bind]
  simp only [always_pure]

/-- Nothing is done with the value. -/
theorem always_dropped (program : Program face Value) (post : Unit → State → Prop)
    (state : State) : (program.bind fun _ => .pure ()).Always can ok post state ↔
      program.Always can ok (fun _ after => post () after) state := by
  rw [always_bind]
  simp only [always_pure]

variable {Item : Type}

variable {Acc : Type}

/-- The loop rule. `inv done acc state` describes the loop after the items of
`done`; the body either extends it by one item or leaves through `post`. -/
theorem always_iterate {body : Acc → Item → Program face (Except Error Unit × Acc)}
    (inv : List Item → Acc → State → Prop) {post : Except Error Unit × Acc → State → Prop}
    (items done : List Item) (acc : Acc) (state : State) (start : inv done acc state)
    (finish : ∀ acc state, inv (done ++ items) acc state → post (.ok (), acc) state)
    (step : ∀ before item after acc state, items = before ++ item :: after →
      inv (done ++ before) acc state →
      (body acc item).Always can ok (fun result next =>
        match result.1 with
        | .ok () => inv (done ++ before ++ [item]) result.2 next
        | .error error => post (.error error, result.2) next) state) :
    (iterate body items acc).Always can ok post state := by
  induction items generalizing done acc state with
  | nil =>
      rw [iterate, always_pure]
      exact finish acc state (by simpa using start)
  | cons item items ih =>
      simp only [iterate, always_bind]
      refine (step [] item items acc state rfl (by simpa using start)).mono ?_
      rintro ⟨result, nextAcc⟩ next reached
      cases result with
      | error error => simpa using reached
      | ok _ =>
          have extended : inv (done ++ [item]) nextAcc next := by simpa using reached
          refine ih (done ++ [item]) nextAcc next extended ?_ ?_
          · intro acc state reached
            exact finish acc state (by simpa using reached)
          · intro before other after acc state split held
            have whole : item :: items = (item :: before) ++ other :: after := by simp [split]
            have moved : inv (done ++ (item :: before)) acc state := by simpa using held
            simpa using step (item :: before) other after acc state whole moved

theorem always_fold {body : Acc → Item → Program face Acc} (inv : List Item → Acc → State → Prop)
    {post : Acc → State → Prop} (items done : List Item) (acc : Acc) (state : State)
    (start : inv done acc state)
    (finish : ∀ acc state, inv (done ++ items) acc state → post acc state)
    (step : ∀ before item after acc state, items = before ++ item :: after →
      inv (done ++ before) acc state →
      (body acc item).Always can ok
        (fun result next => inv (done ++ before ++ [item]) result next) state) :
    (fold body items acc).Always can ok post state := by
  induction items generalizing done acc state with
  | nil =>
      rw [fold, always_pure]
      exact finish acc state (by simpa using start)
  | cons item items ih =>
      simp only [fold, always_bind]
      refine (step [] item items acc state rfl (by simpa using start)).mono ?_
      intro result next reached
      refine ih (done ++ [item]) result next (by simpa using reached) ?_ ?_
      · intro acc state reached
        exact finish acc state (by simpa using reached)
      · intro before other after acc state split held
        have whole : item :: items = (item :: before) ++ other :: after := by simp [split]
        have moved : inv (done ++ (item :: before)) acc state := by simpa using held
        simpa using step (item :: before) other after acc state whole moved

theorem always_run_foldlM {body : Acc → Item → ExceptT Error (Program face) Acc}
    (inv : List Item → Acc → State → Prop) {post : Except Error Acc → State → Prop}
    (items done : List Item) (acc : Acc) (state : State) (start : inv done acc state)
    (finish : ∀ acc state, inv (done ++ items) acc state → post (.ok acc) state)
    (step : ∀ before item after acc state, items = before ++ item :: after →
      inv (done ++ before) acc state →
      (body acc item).run.Always can ok (fun result next =>
        match result with
        | .ok acc => inv (done ++ before ++ [item]) acc next
        | .error error => post (.error error) next) state) :
    (items.foldlM body acc).run.Always can ok post state := by
  induction items generalizing done acc state with
  | nil =>
      rw [List.foldlM_nil, always_run_pure]
      exact finish acc state (by simpa using start)
  | cons item items ih =>
      rw [List.foldlM_cons, always_run_bind]
      refine (step [] item items acc state rfl (by simpa using start)).mono ?_
      intro result next reached
      cases result with
      | error error => exact reached
      | ok nextAcc =>
          refine ih (done ++ [item]) nextAcc next (by simpa using reached) ?_ ?_
          · intro acc state reached
            exact finish acc state (by simpa using reached)
          · intro before other after acc state split held
            have whole : item :: items = (item :: before) ++ other :: after := by simp [split]
            have moved : inv (done ++ (item :: before)) acc state := by simpa using held
            simpa using step (item :: before) other after acc state whole moved

theorem always_for_each {Item : Type} {body : Item → Program face (Except Error Unit)}
    (inv : List Item → State → Prop) {post : Except Error Unit → State → Prop}
    (items done : List Item) (state : State)
    (start : inv done state)
    (finish : ∀ state, inv (done ++ items) state → post (.ok ()) state)
    (step : ∀ before item after state, items = before ++ item :: after →
      inv (done ++ before) state →
      (body item).Always can ok (fun result next =>
        match result with
        | .ok () => inv (done ++ before ++ [item]) next
        | .error error => post (.error error) next) state) :
    (forEach body items).Always can ok post state := by
  induction items generalizing done state with
  | nil =>
      rw [forEach, always_pure]
      exact finish state (by simpa using start)
  | cons item items ih =>
      simp only [forEach, always_bind]
      refine (step [] item items state rfl (by simpa using start)).mono ?_
      intro result next reached
      cases result with
      | error error => simpa using reached
      | ok _ =>
          have extended : inv (done ++ [item]) next := by simpa using reached
          refine ih (done ++ [item]) next extended ?_ ?_
          · intro state reached
            exact finish state (by simpa using reached)
          · intro before other after state split held
            have whole : item :: items = (item :: before) ++ other :: after := by simp [split]
            have moved : inv (done ++ (item :: before)) state := by simpa using held
            simpa using step (item :: before) other after state whole moved

theorem always_for_all {body : Item → Program face Unit} (inv : List Item → State → Prop)
    {post : Unit → State → Prop} (items done : List Item) (state : State) (start : inv done state)
    (finish : ∀ state, inv (done ++ items) state → post () state)
    (step : ∀ before item after state, items = before ++ item :: after →
      inv (done ++ before) state →
      (body item).Always can ok (fun _ next => inv (done ++ before ++ [item]) next) state) :
    (forAll body items).Always can ok post state := by
  induction items generalizing done state with
  | nil =>
      rw [forAll, always_pure]
      exact finish state (by simpa using start)
  | cons item items ih =>
      simp only [forAll, always_bind]
      refine (step [] item items state rfl (by simpa using start)).mono ?_
      intro _ next reached
      refine ih (done ++ [item]) next (by simpa using reached) ?_ ?_
      · intro state reached
        exact finish state (by simpa using reached)
      · intro before other after state split held
        have whole : item :: items = (item :: before) ++ other :: after := by simp [split]
        have moved : inv (done ++ (item :: before)) state := by simpa using held
        simpa using step (item :: before) other after state whole moved

end Program

end Containr.Effect
