import Containr.Effect.Serial

/-!
# One thread among others

What one thread of a pool does is a run of its program over histories: before each of its
calls the other threads add events of their own, and `sees` says what the call may answer
after the history it meets. So a thread is verified alone, with `Always` over `Amid`.
-/

namespace Containr.Effect

variable {face : Interface} {Thread Value State : Type}

/-- The thread's call comes after whatever the others did meanwhile. -/
def Amid (thread : Thread)
    (sees : List (Event face Thread) → (op : face.Op) → face.Answer op → Prop) :
    Behaviour face (List (Event face Thread)) := fun op before answer after =>
  ∃ others, (∀ event ∈ others, event.thread ≠ thread) ∧
    after = before ++ others ++ [⟨thread, op, answer⟩] ∧ sees (before ++ others) op answer

namespace Pool

variable [DecidableEq Thread] {can : Behaviour face State}
  {meets : Restriction face Thread Value State} {start pool : Pool face Thread Value State}
  {history : List (Event face Thread)}

variable {sees : List (Event face Thread) → (op : face.Op) → face.Answer op → Prop}

/-- In a trace whose steps answer the thread as `sees` says, the thread runs amid the
others; what comes after its last call is theirs. -/
theorem Trace.amid (thread : Thread)
    (sound : ∀ history pool event after, Trace can meets start history pool →
      Step can pool event after → meets history pool event → event.thread = thread →
        sees history event.op event.answer) (trace : Trace can meets start history pool) :
    ∃ earlier others, history = earlier ++ others ∧ (∀ event ∈ others, event.thread ≠ thread) ∧
      Program.Reaches (Amid thread sees) (start.threads thread) [] (pool.threads thread) earlier := by
  induction trace with
  | start => exact ⟨[], [], rfl, fun event member => absurd member List.not_mem_nil, .here _ _⟩
  | @step history pool after event before taken met ih =>
      obtain ⟨earlier, others, split, foreign, reached⟩ := ih
      by_cases own : event.thread = thread
      · obtain ⟨next, ready, -, continued⟩ := taken.own
        rw [own] at ready continued
        rw [ready] at reached
        have seen := sound history pool event after before taken met own
        refine ⟨history ++ [event], [], by simp, by simp, ?_⟩
        rw [continued]
        apply reached.snoc
        refine ⟨others, foreign, ?_, ?_⟩
        · obtain ⟨caller, op, answer⟩ := event
          dsimp only at own
          rw [own, split]
        · rw [← split]
          exact seen
      · refine ⟨earlier, others ++ [event], by rw [split, List.append_assoc], ?_, ?_⟩
        · intro other member
          rcases List.mem_append.mp member with old | new
          · exact foreign other old
          · rw [List.mem_singleton.mp new]
            exact own
        · rw [taken.other (Ne.symm own)]
          exact reached

/-- What the thread ensures amid the others it has ensured when it has ended. -/
theorem Trace.ended_amid {thread : Thread} {post : Value → List (Event face Thread) → Prop}
    (sound : ∀ history pool event after, Trace can meets start history pool →
      Step can pool event after → meets history pool event → event.thread = thread →
        sees history event.op event.answer)
    (ensures : (start.threads thread).Ensures (Amid thread sees) post [])
    (trace : Trace can meets start history pool) {value : Value}
    (ended : pool.threads thread = .pure value) :
    ∃ earlier others, history = earlier ++ others ∧ (∀ event ∈ others, event.thread ≠ thread) ∧
      post value earlier := by
  obtain ⟨earlier, others, split, foreign, reached⟩ := trace.amid thread sound
  have left := ensures.reaches reached
  rw [ended] at left
  exact ⟨earlier, others, split, foreign, Program.always_pure.mp left⟩

end Pool

end Containr.Effect
