import Containr.Effect.Recorded

/-!
# A part of the state behind a lock

Some calls take a lock, some give it back, and some change the part of the state it guards.
A thread that makes the last only while it holds the lock is verified alone: it knows nothing
of the part until it takes the lock, may rely on the invariant then, and has restored it when
it gives the lock back. What it knows is then true among any number of threads.
-/

namespace Containr.Effect

variable {face : Interface} {Thread Value State Part : Type}

/-- What an answered call does to the lock and to the part. -/
inductive Role where
  | takes | gives | inside | outside
deriving DecidableEq, Repr

structure Lock (face : Interface) (State Part : Type) where
  role : (op : face.Op) → face.Answer op → Role
  held : State → Bool
  part : State → Part
  /-- What the calls inside do to the part. -/
  effect : Behaviour face Part
  /-- What the calls outside may answer. -/
  sees : (op : face.Op) → face.Answer op → Prop

namespace Lock

variable (lock : Lock face State Part) (inv : Part → Prop)

structure Guards (can : Behaviour face State) : Prop where
  takes : ∀ op before answer after, can op before answer after → lock.role op answer = .takes →
    lock.held before = false ∧ lock.held after = true ∧ lock.part after = lock.part before
  gives : ∀ op before answer after, can op before answer after → lock.role op answer = .gives →
    lock.held after = false ∧ lock.part after = lock.part before
  inside : ∀ op before answer after, can op before answer after → lock.role op answer = .inside →
    lock.held after = lock.held before ∧ lock.effect op (lock.part before) answer (lock.part after)
  outside : ∀ op before answer after, can op before answer after →
    lock.role op answer = .outside → lock.held after = lock.held before ∧
      lock.part after = lock.part before ∧ lock.sees op answer

abbrev Knowledge (_ : Lock face State Part) : Type := Option Part × List (Call face)

def Alone : Behaviour face lock.Knowledge := fun op before answer after =>
  after.2 = before.2 ++ [⟨op, answer⟩] ∧
    match lock.role op answer with
    | .takes => before.1 = none ∧ ∃ part, inv part ∧ after.1 = some part
    | .gives => after.1 = none
    | .inside => ∃ old new, before.1 = some old ∧ lock.effect op old answer new ∧ after.1 = some new
    | .outside => after.1 = before.1 ∧ lock.sees op answer

/-- The part is changed and the lock given back only by who holds it. -/
def Proper (before : lock.Knowledge) (op : face.Op) : Prop :=
  ∀ answer, (lock.role op answer = .inside → before.1.isSome) ∧
    (lock.role op answer = .gives → ∃ part, before.1 = some part ∧ inv part)

abbrev Keeps (ok : lock.Knowledge → face.Op → Prop) (program : Program face Value)
    (post : Value → lock.Knowledge → Prop) (known : lock.Knowledge) : Prop :=
  program.Always (lock.Alone inv) (fun before op => lock.Proper inv before op ∧ ok before op) post
    known

section Steps

variable {lock : Lock face State Part} {inv : Part → Prop} {ok : lock.Knowledge → face.Op → Prop}
  {op : face.Op} {post : face.Answer op → lock.Knowledge → Prop} {known : lock.Knowledge}

/-- A call that has nothing to do with the lock. -/
theorem keeps_outside (role : ∀ answer, lock.role op answer = .outside) (demanded : ok known op)
    (rest : ∀ answer, lock.sees op answer → post answer (known.1, known.2 ++ [⟨op, answer⟩])) :
    lock.Keeps inv ok (Program.perform op) post known := by
  apply Program.always_perform.mpr
  refine ⟨⟨fun answer => ⟨?_, ?_⟩, demanded⟩, ?_⟩
  · intro isInside
    cases (role answer).symm.trans isInside
  · intro gives
    cases (role answer).symm.trans gives
  · rintro answer ⟨knows, calls⟩ ⟨grown, same⟩
    rw [role answer] at same
    cases grown
    obtain ⟨rfl, seen⟩ := same
    exact rest answer seen

/-- A call of the holder. -/
theorem keeps_inside {part : Part} (holds : known.1 = some part)
    (role : ∀ answer, lock.role op answer = .inside) (demanded : ok known op)
    (rest : ∀ answer after, lock.effect op part answer after →
      post answer (some after, known.2 ++ [⟨op, answer⟩])) :
    lock.Keeps inv ok (Program.perform op) post known := by
  apply Program.always_perform.mpr
  refine ⟨⟨fun answer => ⟨?_, ?_⟩, demanded⟩, ?_⟩
  · intro _
    rw [holds]
    rfl
  · intro gives
    cases (role answer).symm.trans gives
  · rintro answer ⟨knows, calls⟩ ⟨grown, acts⟩
    rw [role answer] at acts
    obtain ⟨old, new, isOld, acted, isNew⟩ := acts
    cases holds.symm.trans isOld
    cases grown
    cases isNew
    exact rest answer new acted

/-- The lock is given back. -/
theorem keeps_gives {part : Part} (holds : known.1 = some part) (restored : inv part)
    (role : ∀ answer, lock.role op answer = .gives) (demanded : ok known op)
    (rest : ∀ answer, post answer (none, known.2 ++ [⟨op, answer⟩])) :
    lock.Keeps inv ok (Program.perform op) post known := by
  apply Program.always_perform.mpr
  refine ⟨⟨fun answer => ⟨?_, ?_⟩, demanded⟩, ?_⟩
  · intro isInside
    cases (role answer).symm.trans isInside
  · intro _
    exact ⟨part, holds, restored⟩
  · rintro answer ⟨knows, calls⟩ ⟨grown, gone⟩
    rw [role answer] at gone
    cases grown
    cases gone
    exact rest answer

theorem keeps_asks (role : ∀ answer, lock.role op answer = .takes ∨ lock.role op answer = .outside)
    (demanded : ok known op)
    (taken : ∀ answer part, lock.role op answer = .takes → known.1 = none → inv part →
      post answer (some part, known.2 ++ [⟨op, answer⟩]))
    (refused : ∀ answer, lock.role op answer = .outside →
      post answer (known.1, known.2 ++ [⟨op, answer⟩])) :
    lock.Keeps inv ok (Program.perform op) post known := by
  apply Program.always_perform.mpr
  refine ⟨⟨fun answer => ⟨?_, ?_⟩, demanded⟩, ?_⟩
  · intro isInside
    rcases role answer with takes | outside
    · cases takes.symm.trans isInside
    · cases outside.symm.trans isInside
  · intro gives
    rcases role answer with takes | outside
    · cases takes.symm.trans gives
    · cases outside.symm.trans gives
  · rintro answer ⟨knows, calls⟩ ⟨grown, acts⟩
    cases grown
    rcases role answer with takes | outside
    · rw [takes] at acts
      obtain ⟨free, part, holds, rfl⟩ := acts
      exact taken answer part takes free holds
    · rw [outside] at acts
      obtain ⟨rfl, -⟩ := acts
      exact refused answer outside

theorem keeps_recorded {Value : Type} {program : Program face Value} {rule : Rule face}
    {held : Value → List (Call face) → Prop}
    (recorded : program.Always Recording rule held known.2)
    (outside : ∀ calls op, rule calls op → ∀ answer, lock.role op answer = .outside)
    (demanded : ∀ calls op, rule calls op → ok (known.1, calls) op) :
    lock.Keeps inv ok program (fun value after => after.1 = known.1 ∧ held value after.2) known := by
  obtain ⟨knows, calls⟩ := known
  induction program generalizing calls with
  | pure value =>
      apply Program.always_pure.mpr
      exact ⟨rfl, Program.always_pure.mp recorded⟩
  | call op next ih =>
      rw [Program.always_call] at recorded
      obtain ⟨permitted, continues⟩ := recorded
      apply (@Program.always_bind _ _ _ _ _ _ (Program.perform op) next _ _).mpr
      apply keeps_outside (outside calls op permitted) (demanded calls op permitted)
      intro answer _
      exact ih answer _ (continues answer _ rfl) demanded

end Steps

end Lock

namespace Program

variable {Error Other : Type} {can : Behaviour face State} {ok : State → face.Op → Prop}

def Outcome (can : Behaviour face State) (ok : State → face.Op → Prop)
    (program : ExceptT Error (Program face) Value) (success : Value → State → Prop)
    (failure : State → Prop) (state : State) : Prop :=
  program.run.Always can ok (fun result after => match result with
    | .ok value => success value after
    | .error _ => failure after) state

variable {middle : Value → State → Prop} {post : Other → State → Prop} {failure : State → Prop}
  {state : State} {continuation : Value → ExceptT Error (Program face) Other}
  {program : ExceptT Error (Program face) Value}

theorem outcome_chain (first : Outcome can ok program middle failure state)
    (rest : ∀ value after, middle value after →
      Outcome can ok (continuation value) post failure after) :
    Outcome can ok (program >>= continuation) post failure state := by
  apply first.run_bind
  intro result after held
  cases result with
  | ok value => exact rest value after held
  | error error => exact held

theorem outcome_lift_chain {program : Program face Value}
    (first : program.Always can ok middle state) (rest : ∀ value after, middle value after →
      Outcome can ok (continuation value) post failure after) :
    Outcome can ok (liftM program >>= continuation) post failure state := by
  exact first.run_lift_bind rest

theorem outcome_return {value : Value} (held : middle value state) :
    Outcome can ok (Pure.pure value : ExceptT Error (Program face) Value) middle failure state :=
  always_run_pure.mpr held

theorem outcome_throw {error : Error} (held : failure state) :
    Outcome can ok (throw error : ExceptT Error (Program face) Value) middle failure state :=
  always_run_throw.mpr held

theorem outcome_decided {result : Except Error Value}
    (success : ∀ value, result = .ok value → middle value state)
    (failed : ∀ error, result = .error error → failure state) :
    Outcome can ok (ExceptT.mk (.pure result)) middle failure state := by
  apply always_pure.mpr
  cases result with
  | ok value => exact success value rfl
  | error error => exact failed error rfl

theorem Outcome.mono {weaker : Value → State → Prop} {weak : State → Prop}
    (outcome : Outcome can ok program middle failure state)
    (success : ∀ value after, middle value after → weaker value after)
    (failed : ∀ after, failure after → weak after) : Outcome can ok program weaker weak state := by
  apply Always.mono outcome
  intro result after held
  cases result with
  | ok value => exact success value after held
  | error error => exact failed after held

end Program

namespace Pool

variable [DecidableEq Thread] {can : Behaviour face State}
  {meets : Restriction face Thread Value State} {start pool : Pool face Thread Value State}
  {history : List (Event face Thread)} {lock : Lock face State Part} {inv : Part → Prop}
  {ok : lock.Knowledge → face.Op → Prop} {post : Value → lock.Knowledge → Prop}

def known (lock : Lock face State Part) (owner : Option Thread) (state : State) (thread : Thread) :
    Option Part :=
  if owner = some thread then some (lock.part state) else none

theorem known_owner (lock : Lock face State Part) (state : State) (thread : Thread) :
    known lock (some thread) state thread = some (lock.part state) := if_pos rfl

theorem known_other {owner thread : Thread} (lock : Lock face State Part) (state : State)
    (other : thread ≠ owner) :
    known lock (some owner) state thread = none :=
  if_neg fun same => other (Option.some.inj same).symm

theorem known_free (lock : Lock face State Part) (state : State) (thread : Thread) :
    known lock (none : Option Thread) state thread = none := if_neg nofun

theorem owner_of_known {owner : Option Thread} {state : State} {thread : Thread} {part : Part}
    (knows : known lock owner state thread = some part) :
    owner = some thread ∧ part = lock.part state := by
  unfold known at knows
  split_ifs at knows with same
  exact ⟨same, (Option.some.inj knows).symm⟩

/-- Someone owns the lock or the invariant holds, and every thread is where its own
verification has it. -/
def Locked (lock : Lock face State Part) (inv : Part → Prop)
    (ok : lock.Knowledge → face.Op → Prop) (post : Value → lock.Knowledge → Prop)
    (history : List (Event face Thread)) (pool : Pool face Thread Value State) : Prop :=
  ∃ owner : Option Thread, lock.held pool.state = owner.isSome ∧
    (owner = none → inv (lock.part pool.state)) ∧
    ∀ thread, lock.Keeps inv ok (pool.threads thread) post
      (known lock owner pool.state thread, own thread history)

theorem locked_step {pool after : Pool face Thread Value State} {event : Event face Thread}
    {owner : Option Thread} (next : Option Thread) (taken : Step can pool event after)
    (held : lock.held after.state = next.isSome)
    (free : next = none → inv (lock.part after.state))
    (alone : lock.Alone inv event.op (known lock owner pool.state event.thread,
      own event.thread history) event.answer (known lock next after.state event.thread,
        own event.thread (history ++ [event])))
    (others : ∀ thread, thread ≠ event.thread →
      known lock next after.state thread = known lock owner pool.state thread)
    (keeps : ∀ thread, lock.Keeps inv ok (pool.threads thread) post
      (known lock owner pool.state thread, own thread history)) :
    Locked lock inv ok post (history ++ [event]) after := by
  refine ⟨next, held, free, fun thread => ?_⟩
  by_cases same : thread = event.thread
  · rw [same]
    obtain ⟨continuation, ready, -, continues⟩ := taken.own
    have mine := keeps event.thread
    rw [ready] at mine
    rw [continues]
    exact (Program.always_call.mp mine).2 event.answer _ alone
  · rw [taken.other same, others thread same]
    rw [own_append_other history same]
    exact keeps thread

theorem Trace.locked (guards : lock.Guards can) (free : lock.held start.state = false)
    (initial : inv (lock.part start.state))
    (threads : ∀ thread, lock.Keeps inv ok (start.threads thread) post (none, []))
    (trace : Trace can meets start history pool) : Locked lock inv ok post history pool := by
  apply trace.invariant (Locked lock inv ok post)
  · refine ⟨none, free, fun _ => initial, fun thread => ?_⟩
    rw [known_free]
    exact threads thread
  intro history pool event after before locked taken met
  obtain ⟨owner, held, freely, keeps⟩ := locked
  obtain ⟨continuation, ready, possible, continues⟩ := taken.own
  have mine := keeps event.thread
  rw [ready] at mine
  obtain ⟨insideOwned, givesOwned⟩ := (Program.always_call.mp mine).1.1 event.answer
  have grown := own_append_same history event
  cases role : lock.role event.op event.answer with
  | takes =>
      obtain ⟨wasFree, nowHeld, same⟩ := guards.takes _ _ _ _ possible role
      rw [wasFree] at held
      cases owner with
      | some owner => cases held
      | none =>
          refine locked_step (some event.thread) taken nowHeld nofun ?_ ?_ keeps
          · refine ⟨grown, ?_⟩
            rw [role]
            exact ⟨known_free lock pool.state event.thread, _, freely rfl, by rw [known_owner, same]⟩
          · intro thread other
            rw [known_other lock _ other, known_free]
  | gives =>
      obtain ⟨nowFree, same⟩ := guards.gives _ _ _ _ possible role
      obtain ⟨part, knows, restored⟩ := givesOwned role
      obtain ⟨rfl, rfl⟩ := owner_of_known knows
      refine locked_step none taken nowFree ?_ ?_ ?_ keeps
      · intro _
        rw [same]
        exact restored
      · refine ⟨grown, ?_⟩
        rw [role]
        exact known_free lock after.state event.thread
      · intro thread other
        rw [known_other lock _ other, known_free]
  | inside =>
      obtain ⟨sameHeld, acts⟩ := guards.inside _ _ _ _ possible role
      obtain ⟨part, knows⟩ := Option.isSome_iff_exists.mp (insideOwned role)
      obtain ⟨rfl, rfl⟩ := owner_of_known knows
      refine locked_step (some event.thread) taken (sameHeld.trans held) nofun ?_ ?_ keeps
      · refine ⟨grown, ?_⟩
        rw [role]
        exact ⟨_, _, knows, acts, known_owner lock after.state event.thread⟩
      · intro thread other
        rw [known_other lock _ other, known_other lock _ other]
  | outside =>
      obtain ⟨sameHeld, same, seen⟩ := guards.outside _ _ _ _ possible role
      have sameKnown : ∀ thread, known lock owner after.state thread =
          known lock owner pool.state thread := by
        intro thread
        unfold known
        rw [same]
      refine locked_step owner taken (sameHeld.trans held) ?_ ?_ ?_ keeps
      · rw [same]
        exact freely
      · refine ⟨grown, ?_⟩
        rw [role]
        exact ⟨sameKnown event.thread, seen⟩
      · exact fun thread _ => sameKnown thread

end Pool

end Containr.Effect
