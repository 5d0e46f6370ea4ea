import Mathlib.Algebra.Group.Int.Defs
import Mathlib.Data.List.Basic
import Mathlib.Data.List.Sort
import Mathlib.Data.Int.Order.Basic

/-!
# Numbered rows of many owners

One table keeps a log for each owner under `(owner, idx)`. A new row gets the index after
the largest one of its owner, so an owner's rows are numbered without a gap from some
first index on; a cut at the largest index less a bound then keeps exactly the last rows.
-/

namespace Containr.Effect

structure Entry (Owner Value : Type) where
  owner : Owner
  idx : Int
  value : Value
deriving DecidableEq, Repr

abbrev IndexedLog (Owner Value : Type) : Type := List (Entry Owner Value)

namespace IndexedLog

variable {Owner Value : Type} [DecidableEq Owner]

def rows (log : IndexedLog Owner Value) (owner : Owner) : List (Entry Owner Value) :=
  log.filter fun entry => entry.owner = owner

/-- `COALESCE(MAX(idx), -1)`. -/
def maxIdx (log : IndexedLog Owner Value) (owner : Owner) : Int :=
  ((log.rows owner).map (·.idx)).max?.getD (-1)

/-- `COALESCE(MAX(idx), -1) + 1`; a sum out of 64 bits is no integer. -/
def nextIdx (log : IndexedLog Owner Value) (owner : Owner) : Option Int :=
  if log.maxIdx owner + 1 < 2 ^ 63 then some (log.maxIdx owner + 1) else none

/-- A row under a new index. -/
def insert (log : IndexedLog Owner Value) (owner : Owner) (idx : Int) (value : Value) :
    IndexedLog Owner Value := log ++ [⟨owner, idx, value⟩]

def deleteUpTo (log : IndexedLog Owner Value) (owner : Owner) (last : Int) :
    IndexedLog Owner Value := log.filter fun entry => ¬(entry.owner = owner ∧ entry.idx ≤ last)

def deleteOwner (log : IndexedLog Owner Value) (owner : Owner) : IndexedLog Owner Value :=
  log.filter fun entry => entry.owner ≠ owner

/-- `ORDER BY idx ASC`. -/
def ascending (log : IndexedLog Owner Value) (owner : Owner) : List Value :=
  ((log.rows owner).insertionSort fun left right => left.idx ≤ right.idx).map (·.value)

/-- `ORDER BY idx DESC`. -/
def descending (log : IndexedLog Owner Value) (owner : Owner) : List Value :=
  ((log.rows owner).insertionSort fun left right => right.idx ≤ left.idx).map (·.value)

end IndexedLog

/-- `LIMIT limit OFFSET offset`: a negative limit is none, a negative offset is zero. -/
def page {Value : Type} (limit offset : Int) (values : List Value) : List Value :=
  if limit < 0 then values.drop offset.toNat else (values.drop offset.toNat).take limit.toNat

namespace IndexedLog

variable {Owner Value : Type}

/-- The values under the indices from `first` on. -/
def numbered (owner : Owner) : Int → List Value → List (Entry Owner Value)
  | _, [] => []
  | first, value :: values => ⟨owner, first, value⟩ :: numbered owner (first + 1) values

section Numbered

variable {owner : Owner} (first : Int) (values : List Value)

theorem numbered_append (value : Value) : numbered owner first (values ++ [value]) =
      numbered owner first values ++ [⟨owner, first + values.length, value⟩] := by
  induction values generalizing first with
  | nil => simp [numbered]
  | cons head values ih =>
      simp only [List.cons_append, numbered, ih, List.length_cons]
      have shift : first + 1 + (values.length : Int) = first + ((values.length + 1 : Nat) : Int) := by
        omega
      rw [shift]

theorem numbered_values : (numbered owner first values).map (·.value) = values := by
  induction values generalizing first with
  | nil => rfl
  | cons head values ih => simp [numbered, ih]

theorem numbered_bounds {first : Int} {values : List Value} {entry : Entry Owner Value}
    (member : entry ∈ numbered owner first values) :
    entry.owner = owner ∧ first ≤ entry.idx ∧ entry.idx < first + values.length := by
  induction values generalizing first with
  | nil => cases member
  | cons head values ih =>
      rw [List.length_cons]
      rcases List.mem_cons.mp member with rfl | later
      · exact ⟨rfl, le_refl _, by dsimp only; omega⟩
      · obtain ⟨same, low, high⟩ := ih later
        exact ⟨same, by omega, by omega⟩

theorem numbered_increasing :
    (numbered owner first values).Pairwise fun left right => left.idx < right.idx := by
  induction values generalizing first with
  | nil => exact List.Pairwise.nil
  | cons head values ih =>
      refine List.Pairwise.cons (fun entry later => ?_) (ih (first + 1))
      have low := (numbered_bounds later).2.1
      dsimp only
      omega

theorem numbered_idx_injective {first : Int} {values : List Value} {left right : Entry Owner Value}
    (isLeft : left ∈ numbered owner first values) (isRight : right ∈ numbered owner first values)
    (same : left.idx = right.idx) : left = right := by
  induction values generalizing first with
  | nil => cases isLeft
  | cons head values ih =>
      rcases List.mem_cons.mp isLeft with rfl | leftLater
      · rcases List.mem_cons.mp isRight with rfl | rightLater
        · rfl
        · have low := (numbered_bounds rightLater).2.1
          dsimp only at same
          omega
      · rcases List.mem_cons.mp isRight with rfl | rightLater
        · have low := (numbered_bounds leftLater).2.1
          dsimp only at same
          omega
        · exact ih leftLater rightLater

/-- A cut below an index leaves the rows from there on. -/
theorem numbered_cut (count : Nat) :
    (numbered owner first values).filter (fun entry => first + count ≤ entry.idx) =
      numbered owner (first + count) (values.drop count) := by
  induction values generalizing first count with
  | nil => simp [numbered]
  | cons head values ih =>
      cases count with
      | zero =>
          have kept : ∀ entry ∈ numbered owner first (head :: values),
              decide (first + ((0 : Nat) : Int) ≤ entry.idx) = true := by
            intro entry member
            have low := (numbered_bounds member).2.1
            exact decide_eq_true (by omega)
          rw [List.filter_eq_self.mpr kept, List.drop_zero]
          simp
      | succ count =>
          have shift : first + ((count + 1 : Nat) : Int) = first + 1 + (count : Int) := by omega
          have out : ¬first + 1 + (count : Int) ≤ first := by omega
          rw [shift, List.drop_succ_cons, ← ih (first + 1) count]
          simp [numbered, out]

end Numbered

/-- The owner's rows hold these values, numbered from `first` on. -/
def Holds [DecidableEq Owner] (log : IndexedLog Owner Value) (owner : Owner) (first : Int)
    (values : List Value) : Prop := log.rows owner = numbered owner first values

section Holds

variable [DecidableEq Owner] {log : IndexedLog Owner Value} {owner other : Owner} {first : Int}
  {values : List Value}

theorem holds_empty (owner : Owner) (first : Int) :
    Holds ([] : IndexedLog Owner Value) owner first [] := rfl

theorem Holds.max_idx (holds : log.Holds owner first values) (some : values ≠ []) :
    log.maxIdx owner = first + values.length - 1 := by
  unfold maxIdx
  rw [holds]
  obtain ⟨front, last, rfl⟩ := List.eq_nil_or_concat' values |>.resolve_left some
  have largest : ((numbered owner first (front ++ [last])).map (·.idx)).max? =
      Option.some (first + front.length) := by
    apply List.max?_eq_some_iff.mpr
    rw [numbered_append]
    refine ⟨by simp, ?_⟩
    intro idx member
    obtain ⟨entry, inRows, rfl⟩ := List.mem_map.mp member
    rw [← numbered_append] at inRows
    have high := (numbered_bounds inRows).2.2
    rw [List.length_append, List.length_singleton] at high
    omega
  rw [largest, List.length_append, List.length_singleton]
  dsimp only [Option.getD_some]
  omega

theorem max_idx_empty (empty : log.rows owner = []) : log.maxIdx owner = -1 := by
  unfold maxIdx
  rw [empty]
  rfl

theorem rows_insert (log : IndexedLog Owner Value) (owner : Owner) (idx : Int) (value : Value) :
    (log.insert owner idx value).rows owner = log.rows owner ++ [⟨owner, idx, value⟩] := by
  simp [rows, insert]

theorem rows_insert_other (log : IndexedLog Owner Value) (idx : Int) (value : Value)
    (different : other ≠ owner) : (log.insert owner idx value).rows other = log.rows other := by
  simp [rows, insert, Ne.symm different]

/-- The next index continues the numbering; an empty log starts at zero. -/
theorem Holds.insert_next (holds : log.Holds owner first values) {idx : Int}
    (next : log.nextIdx owner = some idx) (value : Value) :
    (log.insert owner idx value).Holds owner (if values = [] then 0 else first)
      (values ++ [value]) := by
  unfold nextIdx at next
  split_ifs at next
  have isNext := Option.some.inj next
  unfold Holds
  rw [rows_insert]
  by_cases empty : values = []
  · rw [empty] at holds
    rw [max_idx_empty holds] at isNext
    rw [if_pos empty, empty, holds, ← isNext]
    rfl
  · rw [holds.max_idx empty] at isNext
    rw [if_neg empty, numbered_append, holds, ← isNext]
    have same : first + (values.length : Int) - 1 + 1 = first + values.length := by omega
    rw [same]

theorem rows_delete_up_to_other (log : IndexedLog Owner Value) (last : Int)
    (different : other ≠ owner) : (log.deleteUpTo owner last).rows other = log.rows other := by
  unfold deleteUpTo rows
  rw [List.filter_filter]
  apply List.filter_congr
  intro entry _
  by_cases same : entry.owner = other
  · simp [same, different]
  · simp [same]

/-- A cut below the largest index keeps the last rows. -/
theorem Holds.delete_up_to (holds : log.Holds owner first values) (bound : Nat)
    (some : values ≠ []) :
    (log.deleteUpTo owner (log.maxIdx owner - bound)).Holds owner
      (first + ((values.length - bound : Nat) : Int)) (values.drop (values.length - bound)) := by
  rw [holds.max_idx some]
  unfold Holds
  rw [← numbered_cut, ← holds]
  unfold deleteUpTo rows
  rw [List.filter_filter, List.filter_filter]
  apply List.filter_congr
  intro entry member
  by_cases same : entry.owner = owner
  · have inRows : entry ∈ log.rows owner := List.mem_filter.mpr ⟨member, by simpa using same⟩
    rw [holds] at inRows
    have low := (numbered_bounds inRows).2.1
    simp only [same, true_and, decide_true, Bool.true_and, Bool.and_true]
    apply decide_eq_decide.mpr
    omega
  · simp [same]

theorem rows_delete_owner (log : IndexedLog Owner Value) (owner : Owner) :
    (log.deleteOwner owner).rows owner = [] := by
  unfold deleteOwner rows
  rw [List.filter_filter, List.filter_eq_nil_iff]
  intro entry _
  simp

theorem rows_delete_owner_other (log : IndexedLog Owner Value) (different : other ≠ owner) :
    (log.deleteOwner owner).rows other = log.rows other := by
  unfold deleteOwner rows
  rw [List.filter_filter]
  apply List.filter_congr
  intro entry _
  by_cases same : entry.owner = other
  · simp [same, different]
  · simp [same]

/-- Rows are numbered as they were inserted. -/
theorem Holds.ascending (holds : log.Holds owner first values) : log.ascending owner = values := by
  unfold IndexedLog.ascending
  rw [holds]
  have sorted : (numbered owner first values).Pairwise fun left right => left.idx ≤ right.idx :=
    (numbered_increasing first values).imp fun less => le_of_lt less
  rw [sorted.insertionSort_eq]
  exact numbered_values first values

theorem Holds.descending (holds : log.Holds owner first values) :
    log.descending owner = values.reverse := by
  unfold IndexedLog.descending
  rw [holds]
  let later : Entry Owner Value → Entry Owner Value → Prop :=
    fun left right => right.idx ≤ left.idx
  have transitive : IsTrans _ later := ⟨fun _ _ _ first second => le_trans second first⟩
  have total : Std.Total later := ⟨fun left right => le_total right.idx left.idx⟩
  have sorted : (numbered owner first values).reverse.Pairwise later := by
    rw [List.pairwise_reverse]
    exact (numbered_increasing first values).imp fun less => le_of_lt less
  have merged := List.pairwise_insertionSort later (numbered owner first values)
  have perm := (List.perm_insertionSort later (numbered owner first values)).trans
    (List.reverse_perm _).symm
  have antisymmetric : ∀ a b, a ∈ (numbered owner first values).insertionSort later →
      b ∈ (numbered owner first values).reverse → later a b → later b a → a = b := by
    intro a b isA isB low high
    rw [List.mem_insertionSort] at isA
    rw [List.mem_reverse] at isB
    exact numbered_idx_injective isA isB (le_antisymm high low)
  have reversed := List.Perm.eq_of_pairwise antisymmetric merged sorted perm
  rw [reversed, List.map_reverse, numbered_values]

end Holds

end IndexedLog

end Containr.Effect
