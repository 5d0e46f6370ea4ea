import Containr.Effect.Machine

/-!
# What a program may call

`Calls` says which calls occur anywhere in a program, `Under` which calls occur
and what is returned when the answers are as promised.
-/

namespace Containr.Effect.Program

variable {face : Interface} {Value Other State Error : Type}

def Calls (allowed : face.Op → Prop) : Program face Value → Prop
  | .pure _ => True
  | .call op next => allowed op ∧ ∀ answer, (next answer).Calls allowed

section Calls

variable {allowed : face.Op → Prop}

@[simp] theorem calls_pure (value : Value) :
    (Program.pure value : Program face Value).Calls allowed := trivial

variable {op : face.Op}

@[simp] theorem calls_call {next : face.Answer op → Program face Value} :
    (Program.call op next).Calls allowed ↔ allowed op ∧ ∀ answer, (next answer).Calls allowed :=
  Iff.rfl

attribute [irreducible] Calls

theorem calls_perform {op : face.Op} (permitted : allowed op) :
    (perform op).Calls allowed := calls_call.mpr ⟨permitted, fun _ => calls_pure _⟩

variable {program : Program face Value}

theorem Calls.bind {continuation : Value → Program face Other} (first : program.Calls allowed)
    (rest : ∀ value, (continuation value).Calls allowed) :
    (program.bind continuation).Calls allowed := by
  induction program with
  | pure value => exact rest value
  | call op next ih =>
      rw [calls_call] at first
      rw [call_bind, calls_call]
      exact ⟨first.1, fun answer => ih answer (first.2 answer)⟩

theorem calls_anything (program : Program face Value) : program.Calls fun _ => True := by
  induction program with
  | pure value => exact calls_pure value
  | call op next ih => exact calls_call.mpr ⟨trivial, ih⟩

theorem Calls.mono {larger : face.Op → Prop} (calls : program.Calls allowed)
    (weaken : ∀ op, allowed op → larger op) : program.Calls larger := by
  induction program with
  | pure value => exact calls_pure value
  | call op next ih =>
      rw [calls_call] at calls ⊢
      exact ⟨weaken op calls.1, fun answer => ih answer (calls.2 answer)⟩

theorem Calls.head {next : face.Answer op → Program face Value}
    (calls : (Program.call op next).Calls allowed) : allowed op := (calls_call.mp calls).1

theorem Calls.next {next : face.Answer op → Program face Value}
    (calls : (Program.call op next).Calls allowed) (answer : face.Answer op) :
    (next answer).Calls allowed := (calls_call.mp calls).2 answer

variable {continuation : Value → ExceptT Error (Program face) Other}

theorem Calls.run_bind {program : ExceptT Error (Program face) Value}
    (first : program.run.Calls allowed) (rest : ∀ value, (continuation value).run.Calls allowed) :
    (program >>= continuation).run.Calls allowed := by
  rw [ExceptT.run_bind]
  apply Calls.bind first
  intro result
  cases result with
  | ok value => exact rest value
  | error error => exact calls_pure _

theorem Calls.run_lift_bind (first : program.Calls allowed)
    (rest : ∀ value, (continuation value).run.Calls allowed) :
    ((liftM program : ExceptT Error (Program face) Value) >>= continuation).run.Calls allowed := by
  have lifted : ((liftM program : ExceptT Error (Program face) Value) >>= continuation).run =
      program.bind fun value => (continuation value).run :=
    ExceptT.run_bind_lift program continuation
  rw [lifted]
  exact first.bind rest

/-- The last step makes no calls. -/
theorem Calls.run_return {program : ExceptT Error (Program face) Value}
    (calls : program.run.Calls allowed) {result : Value → Except Error Other} :
    (program >>= fun value => ExceptT.mk (.pure (result value))).run.Calls allowed :=
  calls.run_bind fun _ => calls_pure _

theorem Calls.run_lift_return (calls : program.Calls allowed)
    {result : Value → Except Error Other} :
    ((liftM program : ExceptT Error (Program face) Value) >>= fun value =>
      ExceptT.mk (.pure (result value))).run.Calls allowed :=
  calls.run_lift_bind fun _ => calls_pure _

theorem Calls.run_lift (calls : program.Calls allowed) :
    (liftM program : ExceptT Error (Program face) Value).run.Calls allowed := by
  have lifted : (liftM program : ExceptT Error (Program face) Value).run =
      program.bind fun value => .pure (Except.ok value) := rfl
  rw [lifted]
  exact calls.bind fun _ => calls_pure _

theorem calls_run_pure (value : Value) :
    (Pure.pure value : ExceptT Error (Program face) Value).run.Calls allowed := calls_pure _

theorem calls_run_throw (error : Error) :
    (throw error : ExceptT Error (Program face) Value).run.Calls allowed := calls_pure _

theorem calls_ite {condition : Prop} [Decidable condition] {first second : Program face Value}
    (yes : first.Calls allowed) (no : second.Calls allowed) :
    (if condition then first else second).Calls allowed := by
  by_cases holds : condition
  · rw [if_pos holds]
    exact yes
  · rw [if_neg holds]
    exact no

variable {Item : Type} (items : List Item) {Acc : Type}

theorem calls_iterate {body : Acc → Item → Program face (Except Error Unit × Acc)} (acc : Acc)
    (step : ∀ acc, ∀ item ∈ items, (body acc item).Calls allowed) :
    (iterate body items acc).Calls allowed := by
  induction items generalizing acc with
  | nil => exact calls_pure _
  | cons item items ih =>
      apply Calls.bind (step acc item List.mem_cons_self)
      rintro ⟨result, next⟩
      cases result with
      | ok _ => exact ih next fun acc other member => step acc other (List.mem_cons_of_mem _ member)
      | error error => exact calls_pure _

theorem calls_fold {body : Acc → Item → Program face Acc} (acc : Acc)
    (step : ∀ acc, ∀ item ∈ items, (body acc item).Calls allowed) :
    (fold body items acc).Calls allowed := by
  induction items generalizing acc with
  | nil => exact calls_pure _
  | cons item items ih =>
      apply Calls.bind (step acc item List.mem_cons_self)
      intro next
      exact ih next fun acc other member => step acc other (List.mem_cons_of_mem _ member)

theorem calls_for_each {body : Item → Program face (Except Error Unit)}
    (step : ∀ item ∈ items, (body item).Calls allowed) : (forEach body items).Calls allowed := by
  induction items with
  | nil => exact calls_pure _
  | cons item items ih =>
      apply Calls.bind (step item List.mem_cons_self)
      intro result
      cases result with
      | ok _ => exact ih fun other member => step other (List.mem_cons_of_mem _ member)
      | error error => exact calls_pure _

theorem calls_for_all {body : Item → Program face Unit}
    (step : ∀ item ∈ items, (body item).Calls allowed) : (forAll body items).Calls allowed := by
  induction items with
  | nil => exact calls_pure _
  | cons item items ih =>
      apply Calls.bind (step item List.mem_cons_self)
      intro _
      exact ih fun other member => step other (List.mem_cons_of_mem _ member)

theorem calls_foldlM {body : Acc → Item → ExceptT Error (Program face) Acc} (acc : Acc)
    (step : ∀ acc, ∀ item ∈ items, (body acc item).run.Calls allowed) :
    (items.foldlM body acc).run.Calls allowed := by
  induction items generalizing acc with
  | nil => exact calls_pure _
  | cons item items ih =>
      rw [List.foldlM_cons]
      apply Calls.run_bind (step acc item List.mem_cons_self)
      intro next
      exact ih next fun acc other member => step acc other (List.mem_cons_of_mem _ member)

/-- An invariant that every allowed call keeps holds throughout the program. -/
theorem Calls.always {can : Behaviour face State} {inv : State → Prop}
    {program : Program face Value} (calls : program.Calls allowed)
    (keeps : ∀ op before answer after, allowed op → inv before → can op before answer after →
      inv after) {state : State} (start : inv state) :
    program.Always can (fun _ op => allowed op) (fun _ after => inv after) state := by
  induction program generalizing state with
  | pure value =>
      rw [always_pure]
      exact start
  | call op next ih =>
      rw [calls_call] at calls
      rw [always_call]
      refine ⟨calls.1, fun answer after possible => ih answer (calls.2 answer) ?_⟩
      exact keeps op state answer after calls.1 start possible

variable {can : Behaviour face State}

/-- A relation that every allowed call keeps holds between the start and the end. -/
theorem Calls.relates {relation : State → State → Prop} (calls : program.Calls allowed)
    (keeps : ∀ op before answer after, allowed op → can op before answer after →
      relation before after) (same : ∀ state, relation state state)
    (chain : ∀ first second third, relation first second → relation second third →
      relation first third) (state : State) :
    program.Ensures can (fun _ after => relation state after) state := by
  have kept : program.Always can (fun _ op => allowed op) (fun _ after => relation state after)
      state := by
    apply calls.always
    · intro op before answer after permitted reached possible
      exact chain _ _ _ reached (keeps op before answer after permitted possible)
    · exact same state
  exact kept.restrict (fun _ _ _ _ possible => possible) fun _ _ _ => trivial

/-- An invariant of the allowed calls holds wherever the program is cut off. -/
theorem Calls.reaches {inv : State → Prop} {left : Program face Value} {state final : State}
    (calls : program.Calls allowed)
    (keeps : ∀ op before answer after, allowed op → inv before → can op before answer after →
      inv after) (reached : Reaches can program state left final) (start : inv state) :
    inv final := by
  induction reached with
  | here program state => exact start
  | call possible rest ih =>
      exact ih (calls.next _) (keeps _ _ _ _ calls.head start possible)

theorem Calls.ensures {post : Value → State → Prop} (calls : program.Calls allowed) {state : State}
    (ensures : program.Always can (fun _ _ => True) post state) :
    program.Always can (fun _ op => allowed op) post state := by
  induction program generalizing state with
  | pure value =>
      rw [always_pure] at ensures ⊢
      exact ensures
  | call op next ih =>
      rw [calls_call] at calls
      rw [always_call] at ensures ⊢
      exact ⟨calls.1, fun answer after possible =>
        ih answer (calls.2 answer) (ensures.2 answer after possible)⟩

/-- The value of a program whose questions `oracle` answers. -/
def evaluate (oracle : (op : face.Op) → face.Answer op) : Program face Value → Value
  | .pure value => value
  | .call op next => (next (oracle op)).evaluate oracle

/-- Where the calls of a program have fixed answers, so does the program. -/
theorem Calls.evaluates {oracle : (op : face.Op) → face.Answer op} (calls : program.Calls allowed)
    (answers : ∀ op before answer after, allowed op → can op before answer after →
      answer = oracle op ∧ after = before) (state : State) : program.Always can (fun _ _ => True)
      (fun value after => value = program.evaluate oracle ∧ after = state) state := by
  induction program with
  | pure value => exact always_pure.mpr ⟨rfl, rfl⟩
  | call op next ih =>
      apply always_call.mpr
      refine ⟨trivial, fun answer after possible => ?_⟩
      obtain ⟨rfl, rfl⟩ := answers op state answer after calls.head possible
      exact ih (oracle op) (calls.next (oracle op))

end Calls

inductive Residual (program : Program face Value) : Program face Value → Prop where
  | whole : Residual program program
  | next {op : face.Op} {next : face.Answer op → Program face Value}
      (left : Residual program (.call op next)) (answer : face.Answer op) :
      Residual program (next answer)

theorem Calls.residual {allowed : face.Op → Prop} {program rest : Program face Value}
    (calls : program.Calls allowed) (left : Residual program rest) : rest.Calls allowed := by
  induction left with
  | whole => exact calls
  | next left answer ih => exact ih.next answer

def OnOk (post : Value → Prop) : Except Error Value → Prop
  | .ok value => post value
  | .error _ => True

/-- Under the promise that every answer is as `expects` says, the program calls
only what is allowed and returns a value in `post`. -/
def Under (expects : (op : face.Op) → face.Answer op → Prop) (allowed : face.Op → Prop)
    (program : Program face Value) (post : Value → Prop) : Prop :=
  program.Always (fun op (_ : Unit) answer _ => expects op answer) (fun _ op => allowed op)
    (fun value _ => post value) ()

section Under

variable {expects : (op : face.Op) → face.Answer op → Prop} {allowed : face.Op → Prop}
  {post : Value → Prop}

@[simp] theorem under_pure {value : Value} :
    (Program.pure value : Program face Value).Under expects allowed post ↔ post value :=
  always_pure

@[simp] theorem under_call {op : face.Op} {next : face.Answer op → Program face Value} :
    (Program.call op next).Under expects allowed post ↔
      allowed op ∧ ∀ answer, expects op answer → (next answer).Under expects allowed post := by
  unfold Under
  rw [always_call]
  constructor
  · rintro ⟨permitted, rest⟩
    exact ⟨permitted, fun answer expected => rest answer () expected⟩
  · rintro ⟨permitted, rest⟩
    exact ⟨permitted, fun answer _ expected => rest answer expected⟩

variable {program : Program face Value}

@[simp] theorem under_bind {continuation : Value → Program face Other} {post : Other → Prop} :
    (program.bind continuation).Under expects allowed post ↔
      program.Under expects allowed fun value =>
        (continuation value).Under expects allowed post :=
  always_bind

variable {continuation : Value → ExceptT Error (Program face) Other}

@[simp] theorem under_run_bind {program : ExceptT Error (Program face) Value}
    {post : Except Error Other → Prop} : (program >>= continuation).run.Under expects allowed post ↔
      program.run.Under expects allowed fun result =>
        match result with
        | .ok value => (continuation value).run.Under expects allowed post
        | .error error => post (.error error) := by
  unfold Under
  refine always_run_bind.trans (iff_of_eq ?_)
  apply congrArg (fun after => program.run.Always _ _ after ())
  funext result _
  cases result with
  | ok value => rfl
  | error error => rfl

@[simp] theorem under_run_lift_bind {post : Except Error Other → Prop} :
    ((liftM program : ExceptT Error (Program face) Value) >>= continuation).run.Under
        expects allowed post ↔
      program.Under expects allowed fun value =>
        (continuation value).run.Under expects allowed post :=
  always_run_lift_bind

theorem Under.mono {weaker : Value → Prop} (under : program.Under expects allowed post)
    (weaken : ∀ value, post value → weaker value) : program.Under expects allowed weaker :=
  Always.mono under fun value _ => weaken value

variable {middle : Value → Prop}

theorem Under.bind {continuation : Value → Program face Other} {post : Other → Prop}
    (first : program.Under expects allowed middle)
    (rest : ∀ value, middle value → (continuation value).Under expects allowed post) :
    (program.bind continuation).Under expects allowed post := under_bind.mpr (first.mono rest)

theorem Under.run_lift_bind {post : Except Error Other → Prop}
    (first : program.Under expects allowed middle)
    (rest : ∀ value, middle value → (continuation value).run.Under expects allowed post) :
    ((liftM program : ExceptT Error (Program face) Value) >>= continuation).run.Under
      expects allowed post := under_run_lift_bind.mpr (first.mono rest)

theorem Under.run_bind {program : ExceptT Error (Program face) Value}
    {middle : Except Error Value → Prop} {post : Except Error Other → Prop}
    (first : program.run.Under expects allowed middle) (rest : ∀ result, middle result →
      match result with
      | .ok value => (continuation value).run.Under expects allowed post
      | .error error => post (.error error)) :
    (program >>= continuation).run.Under expects allowed post := under_run_bind.mpr (first.mono rest)

theorem Under.weaken {larger : face.Op → Prop} (under : program.Under expects allowed post)
    (permitted : ∀ op, allowed op → larger op) : program.Under expects larger post :=
  Always.restrict under (fun _ _ _ _ expected => expected) fun _ => permitted

/-- The calls are narrowed to those the program makes whatever the answers. -/
theorem Under.within {calls : face.Op → Prop} (under : program.Under expects allowed post)
    (made : program.Calls calls) : program.Under expects calls post := by
  induction program with
  | pure value => exact under_pure.mpr (under_pure.mp under)
  | call op next ih =>
      rw [under_call] at under ⊢
      rw [calls_call] at made
      exact ⟨made.1, fun answer expected => ih answer (under.2 answer expected) (made.2 answer)⟩

theorem Under.expecting {stronger : (op : face.Op) → face.Answer op → Prop}
    (under : program.Under expects allowed post)
    (included : ∀ op answer, stronger op answer → expects op answer) :
    program.Under stronger allowed post :=
  Always.restrict under (fun op _ answer _ => included op answer) fun _ _ permitted => permitted

theorem Calls.under (calls : program.Calls allowed) :
    program.Under expects allowed fun _ => True := by
  induction program with
  | pure value => exact under_pure.mpr trivial
  | call op next ih =>
      rw [calls_call] at calls
      rw [under_call]
      exact ⟨calls.1, fun answer _ => ih answer (calls.2 answer)⟩

theorem under_chain {program : ExceptT Error (Program face) Value} {post : Other → Prop}
    (first : program.run.Under expects allowed (OnOk middle))
    (rest : ∀ value, middle value → (continuation value).run.Under expects allowed (OnOk post)) :
    (program >>= continuation).run.Under expects allowed (OnOk post) := by
  apply under_run_bind.mpr
  apply first.mono
  intro result held
  cases result with
  | ok value => exact rest value held
  | error error => trivial

theorem under_lift_chain {post : Other → Prop} (first : program.Under expects allowed middle)
    (rest : ∀ value, middle value → (continuation value).run.Under expects allowed (OnOk post)) :
    ((liftM program : ExceptT Error (Program face) Value) >>= continuation).run.Under
      expects allowed (OnOk post) :=
  under_run_lift_bind.mpr (first.mono rest)

/-- A chain that ends with a step that cannot fail. -/
theorem under_lift (under : program.Under expects allowed post) :
    (liftM program : ExceptT Error (Program face) Value).run.Under expects allowed (OnOk post) := by
  have lifted : (liftM program : ExceptT Error (Program face) Value).run =
      program.bind fun value => .pure (Except.ok value) := rfl
  rw [lifted]
  apply under_bind.mpr
  apply under.mono
  intro value held
  exact under_pure.mpr held

theorem under_return {value : Value} (held : post value) :
    (Pure.pure value : ExceptT Error (Program face) Value).run.Under expects allowed
      (OnOk post) := under_pure.mpr held

theorem under_throw (error : Error) (post : Value → Prop) :
    (throw error : ExceptT Error (Program face) Value).run.Under expects allowed (OnOk post) :=
  under_pure.mpr trivial

theorem Calls.under_ok {program : Program face (Except Error Value)}
    (calls : program.Calls allowed) :
    program.Under expects allowed (OnOk fun _ => True) := by
  apply calls.under.mono
  intro result _
  cases result with
  | ok value => trivial
  | error error => trivial

theorem Under.ok_mono {program : Program face (Except Error Value)} {weaker : Value → Prop}
    (under : program.Under expects allowed (OnOk post))
    (weaken : ∀ value, post value → weaker value) :
    program.Under expects allowed (OnOk weaker) := by
  apply under.mono
  intro result held
  cases result with
  | ok value => exact weaken value held
  | error error => trivial

theorem Under.and {first second : Value → Prop} (left : program.Under expects allowed first)
    (right : program.Under expects allowed second) :
    program.Under expects allowed fun value => first value ∧ second value :=
  Always.and left right

theorem Under.always {State : Type} {can : Behaviour face State} {inv : State → Prop}
    {program : Program face Value} {post : Value → Prop}
    (under : program.Under expects allowed post)
    (answers : ∀ op before answer after, inv before → can op before answer after →
      expects op answer)
    (keeps : ∀ op before answer after, allowed op → inv before → can op before answer after →
      inv after) {state : State} (start : inv state) :
    program.Always can (fun _ op => allowed op) (fun value after => post value ∧ inv after)
      state := by
  induction program generalizing state with
  | pure value =>
      rw [always_pure]
      exact ⟨under_pure.mp under, start⟩
  | call op next ih =>
      rw [under_call] at under
      rw [always_call]
      refine ⟨under.1, fun answer after possible => ?_⟩
      exact ih answer (under.2 answer (answers op state answer after start possible))
        (keeps op state answer after under.1 start possible)

theorem Under.anywhere {State : Type} (under : program.Under (fun _ _ => True) (fun _ => True) post)
    (can : Behaviour face State) (state : State) :
    program.Ensures can (fun value _ => post value) state := by
  induction program generalizing state with
  | pure value =>
      rw [Ensures, always_pure]
      exact under_pure.mp under
  | call op next ih =>
      rw [under_call] at under
      rw [Ensures, always_call]
      exact ⟨trivial, fun answer after _ => ih answer (under.2 answer trivial) after⟩

theorem under_for_each {Item : Type} {body : Item → Program face (Except Error Unit)}
    (items : List Item)
    (step : ∀ item ∈ items, (body item).Under expects allowed fun _ => True) :
    (forEach body items).Under expects allowed fun _ => True := by
  induction items with
  | nil => exact under_pure.mpr trivial
  | cons item items ih =>
      apply under_bind.mpr
      apply (step item List.mem_cons_self).mono
      intro result _
      cases result with
      | ok _ => exact ih fun other member => step other (List.mem_cons_of_mem _ member)
      | error error => exact under_pure.mpr trivial

theorem under_for_each_ok {Item : Type} {body : Item → Program face (Except Error Unit)}
    (items : List Item)
    (step : ∀ item ∈ items, (body item).Under expects allowed fun result => result = .ok ()) :
    (forEach body items).Under expects allowed fun result => result = .ok () := by
  induction items with
  | nil => exact under_pure.mpr rfl
  | cons item items ih =>
      apply under_bind.mpr
      apply (step item List.mem_cons_self).mono
      intro result isOk
      rw [isOk]
      exact ih fun other member => step other (List.mem_cons_of_mem _ member)

end Under

end Containr.Effect.Program
