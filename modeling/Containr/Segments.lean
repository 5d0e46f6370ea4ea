import Mathlib.Data.List.Basic

/-!
# Texts of several fields

Fields are joined by a mark. The fields behind the first hold no mark, so a text is read
from its end: a front that ends with the mark takes either the whole first field or a part
of it.
-/

namespace Containr.Segments

variable {Item : Type} {mark : Item} {first front piece rest : List Item}

/-- Where a front that ends with the mark can end, when the last field holds none. -/
theorem append_mark_iff (plain : mark ∉ piece) :
    first ++ mark :: piece = front ++ mark :: rest ↔
      (first = front ∧ piece = rest) ∨
        ∃ more, first = front ++ mark :: more ∧ rest = more ++ mark :: piece := by
  constructor
  · intro same
    rcases List.append_eq_append_iff.mp same with ⟨middle, whole, split⟩ | ⟨middle, whole, split⟩
    · cases middle with
      | nil =>
          have parts := List.cons.inj split
          exact Or.inl ⟨by simpa using whole.symm, parts.2⟩
      | cons head middle =>
          have parts := List.cons.inj split
          have inside : mark ∈ piece := by
            rw [parts.2]
            simp
          exact absurd inside plain
    · cases middle with
      | nil =>
          have parts := List.cons.inj split
          exact Or.inl ⟨by simpa using whole, parts.2.symm⟩
      | cons head middle =>
          have parts := List.cons.inj split
          refine Or.inr ⟨middle, ?_, parts.2⟩
          rw [whole, parts.1]
  · intro cases
    rcases cases with ⟨same, last⟩ | ⟨more, whole, last⟩
    · rw [same, last]
    · rw [whole, last]
      simp

/-- The last field and what stands before it are determined. -/
theorem append_mark_inj (plain : mark ∉ piece) (plainRest : mark ∉ rest) :
    first ++ mark :: piece = front ++ mark :: rest ↔ first = front ∧ piece = rest := by
  rw [append_mark_iff plain]
  constructor
  · intro cases
    rcases cases with same | ⟨more, -, last⟩
    · exact same
    · have inside : mark ∈ rest := by
        rw [last]
        simp
      exact absurd inside plainRest
  · exact Or.inl

theorem mark_append_inj (plain : mark ∉ first) (plainFront : mark ∉ front)
    (same : first ++ mark :: piece = front ++ mark :: rest) : first = front := by
  rcases List.append_eq_append_iff.mp same with ⟨middle, whole, split⟩ | ⟨middle, whole, split⟩
  · cases middle with
    | nil => simpa using whole.symm
    | cons head middle =>
        have isMark : mark = head := (List.cons.inj split).1
        have inside : mark ∈ front := by simp [whole, isMark]
        exact absurd inside plainFront
  · cases middle with
    | nil => simpa using whole
    | cons head middle =>
        have isMark : mark = head := (List.cons.inj split).1
        have inside : mark ∈ first := by simp [whole, isMark]
        exact absurd inside plain

theorem repr_digits (value : Nat) : ∀ ch ∈ (toString value).toList, ch.isDigit = true := by
  intro ch member
  rw [Nat.toString_eq_repr, Nat.toList_repr] at member
  exact Nat.isDigit_of_mem_toDigits (by decide) (by decide) member

theorem repr_ne_nil (value : Nat) : (toString value).toList ≠ [] := by
  rw [Nat.toString_eq_repr, Nat.toList_repr]
  exact Nat.toDigits_ne_nil

theorem repr_inj {left right : Nat} : toString left = toString right ↔ left = right := by
  constructor
  · intro same
    have digits : Nat.toDigits 10 left = Nat.toDigits 10 right := by
      rw [← Nat.toList_repr, ← Nat.toList_repr, ← Nat.toString_eq_repr, ← Nat.toString_eq_repr, same]
    have read := congrArg (fun chars => Nat.ofDigitChars 10 chars 0) digits
    simpa using read
  · exact congrArg toString

theorem digit_ne_hyphen {ch : Char} (digit : ch.isDigit = true) : ch ≠ '-' := by
  intro same
  rw [same] at digit
  revert digit
  decide

theorem repr_plain (value : Nat) : '-' ∉ (toString value).toList := fun member =>
  digit_ne_hyphen (repr_digits value _ member) rfl

end Containr.Segments
