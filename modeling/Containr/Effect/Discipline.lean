import Containr.Effect.Calls

/-!
# Reading before writing

A program that shares a record with others keeps copies of it. `ReadsFirst` says
that on every path a read comes before the first write, so the program no longer
acts on a copy it took earlier. `Disciplined` is what it owes in return: wherever
a read comes first, its later writes respect what that read answers.
-/

namespace Containr.Effect.Program

variable {face : Interface} {Value Other : Type}

def ReadsFirst (reads writes : face.Op → Prop) : Program face Value → Prop
  | .pure _ => True
  | .call op next => reads op ∨ ¬writes op ∧ ∀ answer, (next answer).ReadsFirst reads writes

theorem reads_first_call {reads writes : face.Op → Prop} (op : face.Op)
    (next : face.Answer op → Program face Value) :
    (Program.call op next).ReadsFirst reads writes ↔
      reads op ∨ ¬writes op ∧ ∀ answer, (next answer).ReadsFirst reads writes := Iff.rfl

attribute [irreducible] ReadsFirst

/-- What is asked of a program that shares something with others. -/
structure Discipline (face : Interface) where
  reads : face.Op → Prop
  writes : face.Op → Prop
  apart : ∀ op, reads op → ¬writes op
  /-- The answers that are possible at all. -/
  credible : (op : face.Op) → face.Answer op → Prop
  /-- The answers to the reads while the others keep their promise. -/
  promised : (op : face.Op) → face.Answer op → Prop
  /-- The writes that are harmless then. -/
  sound : face.Op → Prop

def Guarded (rule : Discipline face) (program : Program face Value) : Prop :=
  program.Under (fun op answer => rule.credible op answer ∧ rule.promised op answer)
    (fun op => rule.writes op → rule.sound op) fun _ => True

def Disciplined (rule : Discipline face) : Program face Value → Prop
  | .pure _ => True
  | .call op next =>
      ((Program.call op next).ReadsFirst rule.reads rule.writes →
        (Program.call op next).Guarded rule) ∧
      ∀ answer, rule.credible op answer → (next answer).Disciplined rule

section Disciplined

variable {rule : Discipline face}

theorem guarded_pure (value : Value) :
    (Program.pure value : Program face Value).Guarded rule := under_pure.mpr trivial

variable {op : face.Op}

theorem guarded_call {next : face.Answer op → Program face Value} :
    (Program.call op next).Guarded rule ↔ (rule.writes op → rule.sound op) ∧
      ∀ answer, rule.credible op answer → rule.promised op answer →
        (next answer).Guarded rule := by
  unfold Guarded
  rw [under_call]
  apply and_congr_right
  intro _
  exact forall_congr' fun answer => and_imp

variable {continuation : Value → Program face Other} {program : Program face Value}

theorem guarded_bind (post : Value → Prop)
    (first : program.Under (fun op answer => rule.credible op answer ∧ rule.promised op answer)
      (fun op => rule.writes op → rule.sound op) post)
    (rest : ∀ value, post value → (continuation value).Guarded rule) :
    (program.bind continuation).Guarded rule := by
  unfold Guarded
  rw [under_bind]
  exact first.mono rest

theorem disciplined_pure (value : Value) :
    (Program.pure value : Program face Value).Disciplined rule := trivial

theorem disciplined_call (op : face.Op) (next : face.Answer op → Program face Value) :
    (Program.call op next).Disciplined rule ↔
      ((Program.call op next).ReadsFirst rule.reads rule.writes →
        (Program.call op next).Guarded rule) ∧
      ∀ answer, rule.credible op answer → (next answer).Disciplined rule := Iff.rfl

attribute [irreducible] Disciplined Guarded

theorem Disciplined.guarded (disciplined : program.Disciplined rule)
    (fresh : program.ReadsFirst rule.reads rule.writes) : program.Guarded rule := by
  cases program with
  | pure value => exact guarded_pure value
  | call op next =>
      rw [disciplined_call] at disciplined
      exact disciplined.1 fresh

theorem Disciplined.next {next : face.Answer op → Program face Value}
    (disciplined : (Program.call op next).Disciplined rule) {answer : face.Answer op}
    (credible : rule.credible op answer) : (next answer).Disciplined rule :=
  ((disciplined_call op next).mp disciplined).2 answer credible

/-- A write needs nothing of its own: no read comes before it. -/
theorem disciplined_write {next : face.Answer op → Program face Value} (isWrite : rule.writes op)
    (rest : ∀ answer, rule.credible op answer → (next answer).Disciplined rule) :
    (Program.call op next).Disciplined rule := by
  rw [disciplined_call]
  refine ⟨fun fresh => ?_, rest⟩
  rw [reads_first_call] at fresh
  rcases fresh with isRead | ⟨notWrite, _⟩
  · exact absurd isWrite (rule.apart op isRead)
  · exact absurd isWrite notWrite

theorem disciplined_read {next : face.Answer op → Program face Value} (isRead : rule.reads op)
    (guarded : ∀ answer, rule.credible op answer → rule.promised op answer →
      (next answer).Guarded rule)
    (rest : ∀ answer, rule.credible op answer → (next answer).Disciplined rule) :
    (Program.call op next).Disciplined rule := by
  rw [disciplined_call]
  refine ⟨fun _ => ?_, rest⟩
  rw [guarded_call]
  exact ⟨fun isWrite => absurd isWrite (rule.apart op isRead), guarded⟩

theorem disciplined_quiet {next : face.Answer op → Program face Value} (notRead : ¬rule.reads op)
    (notWrite : ¬rule.writes op)
    (rest : ∀ answer, rule.credible op answer → (next answer).Disciplined rule) :
    (Program.call op next).Disciplined rule := by
  rw [disciplined_call]
  refine ⟨fun fresh => ?_, rest⟩
  rw [reads_first_call] at fresh
  rw [guarded_call]
  refine ⟨fun isWrite => absurd isWrite notWrite, fun answer credible _ => ?_⟩
  rcases fresh with isRead | ⟨_, later⟩
  · exact absurd isRead notRead
  · exact (rest answer credible).guarded (later answer)

theorem Disciplined.quiet_bind (post : Value → Prop)
    (quiet : program.Under rule.credible (fun op => ¬rule.reads op ∧ ¬rule.writes op) post)
    (rest : ∀ value, post value → (continuation value).Disciplined rule) :
    (program.bind continuation).Disciplined rule := by
  induction program with
  | pure value => exact rest value (under_pure.mp quiet)
  | call op next ih =>
      rw [under_call] at quiet
      rw [call_bind]
      apply disciplined_quiet quiet.1.1 quiet.1.2
      intro answer credible
      exact ih answer (quiet.2 answer credible)

theorem Disciplined.calls_bind (quiet : program.Calls fun op => ¬rule.reads op ∧ ¬rule.writes op)
    (rest : ∀ value, (continuation value).Disciplined rule) :
    (program.bind continuation).Disciplined rule :=
  Disciplined.quiet_bind (fun _ => True) quiet.under fun value _ => rest value

theorem Calls.guarded (quiet : program.Calls fun op => ¬rule.writes op) : program.Guarded rule := by
  have silent : program.Calls fun op => rule.writes op → rule.sound op :=
    quiet.mono fun op notWrite isWrite => absurd isWrite notWrite
  unfold Guarded
  exact silent.under

theorem ReadsFirst.calls {reads writes : face.Op → Prop} (fresh : program.ReadsFirst reads writes)
    (noReads : program.Calls fun op => ¬reads op) : program.Calls fun op => ¬writes op := by
  induction program with
  | pure value => exact calls_pure value
  | call op next ih =>
      rw [reads_first_call] at fresh
      rw [calls_call] at noReads ⊢
      rcases fresh with isRead | ⟨notWrite, later⟩
      · exact absurd isRead noReads.1
      · exact ⟨notWrite, fun answer => ih answer (later answer) (noReads.2 answer)⟩

/-- Without a read ahead, a read comes first only where nothing is written. -/
theorem disciplined_of_no_reads (noReads : program.Calls fun op => ¬rule.reads op) :
    program.Disciplined rule := by
  induction program with
  | pure value => exact disciplined_pure value
  | call op next ih =>
      rw [disciplined_call]
      refine ⟨fun fresh => Calls.guarded (fresh.calls noReads), fun answer _ => ?_⟩
      exact ih answer (noReads.next answer)

end Disciplined

end Containr.Effect.Program
