import Containr.Effect.Calls
import Mathlib.Data.List.Induction

/-!
# Interleaved runs of many programs

A pool holds one program per thread and one shared state. A step lets one
thread make its next call; a trace is any finite sequence of steps. `meets`
restricts a trace: it sees the calls made so far, the pool before the step and
the step itself.
-/

namespace Containr.Effect

variable {face : Interface} {Thread Value State : Type}

structure Pool (face : Interface) (Thread Value State : Type) where
  threads : Thread → Program face Value
  state : State

structure Event (face : Interface) (Thread : Type) where
  thread : Thread
  op : face.Op
  answer : face.Answer op

/-- There was an item that `starts`, and none that `stops` came after it. -/
def Since {Item : Type} (starts : List Item → Item → Prop) (stops : Item → Prop)
    (history : List Item) : Prop :=
  ∃ before first later, history = before ++ first :: later ∧ starts before first ∧
    ∀ item ∈ later, ¬stops item

variable {Item : Type} {history : List Item} {starts : List Item → Item → Prop}
  {stops : Item → Prop}

theorem since_append {item : Item} (since : Since starts stops (history ++ [item])) :
    starts history item ∨ Since starts stops history ∧ ¬stops item := by
  obtain ⟨before, first, later, split, started, quiet⟩ := since
  rcases List.eq_nil_or_concat' later with rfl | ⟨others, last, rfl⟩
  · have parts := List.append_inj' split rfl
    rw [parts.1, List.singleton_inj.mp parts.2]
    exact Or.inl started
  · have reassoc : history ++ [item] = (before ++ first :: others) ++ [last] := by
      simpa using split
    have parts := List.append_inj' reassoc rfl
    have same : item = last := List.singleton_inj.mp parts.2
    have quietBefore : ∀ other ∈ others, ¬stops other :=
      fun other member => quiet other (List.mem_append_left _ member)
    have quietLast : ¬stops last := quiet last (List.mem_append_right _ List.mem_cons_self)
    rw [same]
    exact Or.inr ⟨⟨before, first, others, parts.1, started, quietBefore⟩, quietLast⟩

theorem since_nil : ¬Since starts stops [] := by
  rintro ⟨before, first, later, split, -⟩
  cases before with
  | nil => cases split
  | cons _ _ => cases split

theorem since_snoc (item : Item) (started : starts history item) :
    Since starts stops (history ++ [item]) :=
  ⟨history, item, [], rfl, started, fun _ member => absurd member List.not_mem_nil⟩

theorem Since.append (since : Since starts stops history) (others : List Item)
    (quiet : ∀ item ∈ others, ¬stops item) : Since starts stops (history ++ others) := by
  obtain ⟨before, first, later, split, started, quietLater⟩ := since
  refine ⟨before, first, later ++ others, ?_, started, ?_⟩
  · rw [split, List.append_assoc, List.cons_append]
  · intro item member
    rcases List.mem_append.mp member with old | new
    · exact quietLater item old
    · exact quiet item new

theorem Since.of_append {others : List Item} (since : Since starts stops (history ++ others))
    (none : ∀ before, ∀ item ∈ others, ¬starts before item) : Since starts stops history := by
  induction others using List.reverseRecOn with
  | nil => simpa using since
  | append_singleton others item ih =>
      rw [← List.append_assoc] at since
      rcases since_append since with started | ⟨earlier, -⟩
      · exact absurd started (none _ item (by simp))
      · exact ih earlier fun before other member => none before other (by simp [member])

namespace Pool

variable [DecidableEq Thread]

inductive Step (can : Behaviour face State) :
    Pool face Thread Value State → Event face Thread → Pool face Thread Value State → Prop where
  | call {pool : Pool face Thread Value State} {thread : Thread} {op : face.Op}
      {next : face.Answer op → Program face Value} {answer : face.Answer op} {after : State}
      (ready : pool.threads thread = .call op next)
      (possible : can op pool.state answer after) :
      Step can pool ⟨thread, op, answer⟩
        ⟨Function.update pool.threads thread (next answer), after⟩

abbrev Restriction (face : Interface) (Thread Value State : Type) : Type :=
  List (Event face Thread) → Pool face Thread Value State → Event face Thread → Prop

inductive Trace (can : Behaviour face State) (meets : Restriction face Thread Value State)
    (start : Pool face Thread Value State) :
    List (Event face Thread) → Pool face Thread Value State → Prop where
  | start : Trace can meets start [] start
  | step {history : List (Event face Thread)} {pool after : Pool face Thread Value State}
      {event : Event face Thread} (before : Trace can meets start history pool)
      (taken : Step can pool event after) (met : meets history pool event) :
      Trace can meets start (history ++ [event]) after

variable {can : Behaviour face State} {meets : Restriction face Thread Value State}
  {start : Pool face Thread Value State} {pool : Pool face Thread Value State}
  {history : List (Event face Thread)}

theorem Trace.invariant (inv : List (Event face Thread) → Pool face Thread Value State → Prop)
    (initial : inv [] start)
    (step : ∀ history pool event after, Trace can meets start history pool → inv history pool →
      Step can pool event after → meets history pool event → inv (history ++ [event]) after)
    (trace : Trace can meets start history pool) : inv history pool := by
  induction trace with
  | start => exact initial
  | step before taken met ih => exact step _ _ _ _ before ih taken met

variable {event : Event face Thread} {after : Pool face Thread Value State}

theorem Trace.last (trace : Trace can meets start (history ++ [event]) after) :
    ∃ pool, Trace can meets start history pool ∧ Step can pool event after ∧
      meets history pool event := by
  generalize whole : history ++ [event] = events at trace
  cases trace with
  | start => simp at whole
  | step before taken met =>
      have parts := List.append_inj' whole rfl
      cases parts.1
      cases parts.2
      exact ⟨_, before, taken, met⟩

theorem Trace.strengthen {stricter : Restriction face Thread Value State}
    (trace : Trace can meets start history pool)
    (each : ∀ earlier event later before, history = earlier ++ event :: later →
      Trace can meets start earlier before → stricter earlier before event) :
    Trace can stricter start history pool := by
  induction trace with
  | start => exact .start
  | @step history pool after event before taken met ih =>
      refine .step (ih ?_) taken (each history event [] pool rfl before)
      intro earlier other later reached split
      exact each earlier other (later ++ [event]) reached (by rw [split]; simp)

theorem Step.other (taken : Step can pool event after) {thread : Thread}
    (different : thread ≠ event.thread) : after.threads thread = pool.threads thread := by
  cases taken with
  | call ready possible => exact Function.update_of_ne different _ _

theorem Step.own (taken : Step can pool event after) :
    ∃ next, pool.threads event.thread = .call event.op next ∧
      can event.op pool.state event.answer after.state ∧
      after.threads event.thread = next event.answer := by
  cases taken with
  | call ready possible => exact ⟨_, ready, possible, Function.update_self _ _ _⟩

/-- Threads that keep to `allowed` as long as the answers are as `expects` says, in a pool
whose allowed steps give such answers. -/
theorem Trace.under {expects : (op : face.Op) → face.Answer op → Prop} {allowed : face.Op → Prop}
    (inv : List (Event face Thread) → Pool face Thread Value State → Prop)
    (programs : ∀ thread, (start.threads thread).Under expects allowed fun _ => True)
    (initial : inv [] start)
    (keeps : ∀ history pool event after, inv history pool → allowed event.op →
      Step can pool event after → meets history pool event →
        inv (history ++ [event]) after ∧ expects event.op event.answer)
    (trace : Trace can meets start history pool) :
    inv history pool ∧ ∀ thread, (pool.threads thread).Under expects allowed fun _ => True := by
  apply trace.invariant (fun history pool =>
    inv history pool ∧ ∀ thread, (pool.threads thread).Under expects allowed fun _ => True)
  · exact ⟨initial, programs⟩
  · intro history pool event after _ held taken met
    obtain ⟨next, ready, -, continued⟩ := taken.own
    have own := held.2 event.thread
    rw [ready, Program.under_call] at own
    have kept := keeps history pool event after held.1 own.1 taken met
    refine ⟨kept.1, fun thread => ?_⟩
    by_cases same : thread = event.thread
    · rw [same, continued]
      exact own.2 event.answer kept.2
    · rw [taken.other same]
      exact held.2 thread

/-- Executes a schedule: at each entry the named thread makes its next call
under the given policy. `none` when that thread has already ended. -/
def execute (machine : Machine face State) :
    List (Thread × machine.Policy) → Pool face Thread Value State →
      Option (List (Event face Thread) × Pool face Thread Value State)
  | [], pool => some ([], pool)
  | (thread, policy) :: schedule, pool =>
      match pool.threads thread with
      | .pure _ => none
      | .call op next =>
          let result := machine.exec op (policy op pool.state) pool.state
          (execute machine schedule
            ⟨Function.update pool.threads thread (next result.1), result.2⟩).map
            fun rest => (⟨thread, op, result.1⟩ :: rest.1, rest.2)

variable {final : Pool face Thread Value State} {events : List (Event face Thread)}
  {machine : Machine face State} {schedule : List (Thread × machine.Policy)}

/-- An executed schedule is a trace, as long as its steps keep `inv` and meet the
restriction. -/
theorem Trace.execute {meets : Restriction face Thread Value State}
    {start : Pool face Thread Value State} (inv : Pool face Thread Value State → Prop)
    (admitted : ∀ entry ∈ schedule, ∀ op state, machine.Admits op (entry.2 op state) state)
    (kept : ∀ entry ∈ schedule, ∀ history pool event after, event.thread = entry.1 → inv pool →
      Step machine.can pool event after → meets history pool event ∧ inv after)
    (reached : Trace machine.can meets start history pool) (held : inv pool)
    (executed : Pool.execute machine schedule pool = some (events, final)) :
    Trace machine.can meets start (history ++ events) final ∧ inv final := by
  induction schedule generalizing history pool events with
  | nil =>
      cases executed
      exact ⟨by simpa using reached, held⟩
  | cons entry schedule ih =>
      obtain ⟨thread, policy⟩ := entry
      cases ready : pool.threads thread with
      | pure value => simp [Pool.execute, ready] at executed
      | call op next =>
          simp only [Pool.execute, ready, Option.map_eq_some_iff, Prod.exists, Prod.mk.injEq]
            at executed
          obtain ⟨rest, last, continued, rfl, rfl⟩ := executed
          have possible : machine.can op pool.state _ _ :=
            ⟨policy op pool.state, admitted _ List.mem_cons_self op pool.state, rfl⟩
          have taken := Step.call ready possible
          obtain ⟨met, heldNext⟩ := kept _ List.mem_cons_self history pool _ _ rfl held taken
          have followed := ih (fun other member => admitted other (List.mem_cons_of_mem _ member))
            (fun other member => kept other (List.mem_cons_of_mem _ member))
            (reached.step taken met) heldNext continued
          simpa using followed

theorem Trace.of_execute {start : Pool face Thread Value State}
    (admitted : ∀ entry ∈ schedule, ∀ op state, machine.Admits op (entry.2 op state) state)
    (executed : Pool.execute machine schedule start = some (events, final)) :
    Trace machine.can (fun _ _ _ => True) start events final := by
  have traced := Trace.execute (fun _ => True) admitted
    (fun _ _ _ _ _ _ _ _ _ => ⟨trivial, trivial⟩) (Trace.start) trivial executed
  simpa using traced.1

def executeChecked (machine : Machine face State)
    (check : List (Event face Thread) → Pool face Thread Value State → Event face Thread → Bool) :
    List (Thread × machine.Policy) → List (Event face Thread) → Pool face Thread Value State →
      Option (List (Event face Thread) × Pool face Thread Value State)
  | [], history, pool => some (history, pool)
  | (thread, policy) :: schedule, history, pool =>
      match pool.threads thread with
      | .pure _ => none
      | .call op next =>
          let result := machine.exec op (policy op pool.state) pool.state
          let event : Event face Thread := ⟨thread, op, result.1⟩
          if check history pool event then
            executeChecked machine check schedule (history ++ [event])
              ⟨Function.update pool.threads thread (next result.1), result.2⟩
          else none

/-- An executed schedule whose steps pass a check that is sound in every trace. -/
theorem Trace.of_checked_reached
    {check : List (Event face Thread) → Pool face Thread Value State → Event face Thread → Bool}
    (admitted : ∀ entry ∈ schedule, ∀ op state, machine.Admits op (entry.2 op state) state)
    (sound : ∀ history pool event, Trace machine.can meets start history pool →
      check history pool event = true → meets history pool event)
    (reached : Trace machine.can meets start history pool)
    (executed : executeChecked machine check schedule history pool = some (events, final)) :
    Trace machine.can meets start events final := by
  induction schedule generalizing history pool with
  | nil =>
      cases executed
      exact reached
  | cons entry schedule ih =>
      obtain ⟨thread, policy⟩ := entry
      cases ready : pool.threads thread with
      | pure value => simp [executeChecked, ready] at executed
      | call op next =>
          simp only [executeChecked, ready] at executed
          split at executed
          · rename_i passed
            have possible : machine.can op pool.state _ _ :=
              ⟨policy op pool.state, admitted _ List.mem_cons_self op pool.state, rfl⟩
            apply ih (fun other member => admitted other (List.mem_cons_of_mem _ member))
              (reached.step (Step.call ready possible) (sound _ _ _ reached passed)) executed
          · cases executed

theorem Trace.of_checked {machine : Machine face State}
    {check : List (Event face Thread) → Pool face Thread Value State → Event face Thread → Bool}
    {schedule : List (Thread × machine.Policy)}
    (admitted : ∀ entry ∈ schedule, ∀ op state, machine.Admits op (entry.2 op state) state)
    (sound : ∀ history pool event, check history pool event = true → meets history pool event)
    {history events : List (Event face Thread)} {pool final : Pool face Thread Value State}
    (reached : Trace machine.can meets start history pool)
    (executed : executeChecked machine check schedule history pool = some (events, final)) :
    Trace machine.can meets start events final :=
  Trace.of_checked_reached admitted (fun history pool event _ => sound history pool event) reached
    executed

theorem Step.of_execute {thread : Thread} {policy : machine.Policy}
    (admitted : ∀ op state, machine.Admits op (policy op state) state)
    (executed : Pool.execute machine [(thread, policy)] pool = some (events, final)) :
    ∃ event, event.thread = thread ∧ Step machine.can pool event final := by
  cases ready : pool.threads thread with
  | pure value => simp [Pool.execute, ready] at executed
  | call op next =>
      simp only [Pool.execute, ready, Option.map_some, Option.some.injEq, Prod.mk.injEq]
        at executed
      obtain ⟨-, rfl⟩ := executed
      exact ⟨_, rfl, Step.call ready ⟨policy op pool.state, admitted op pool.state, rfl⟩⟩

end Pool

end Containr.Effect
