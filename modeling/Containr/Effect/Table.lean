import Mathlib.Data.List.Basic
import Mathlib.Data.List.Nodup
import Mathlib.Data.List.Induction

/-!
# Keyed tables

A table is a list of rows with a key. `upsert` is `INSERT .. ON CONFLICT(key) DO
UPDATE`: it rewrites the rows of that key in place, or appends a new row.
-/

namespace Containr.Effect

variable {Row Key : Type} [DecidableEq Key]

def upsert (key : Row → Key) (row : Row) (table : List Row) : List Row :=
  if table.any (fun other => key other = key row) then
    table.map fun other => if key other = key row then row else other
  else table ++ [row]

def lookup (key : Row → Key) (wanted : Key) (table : List Row) : Option Row :=
  table.find? fun row => key row = wanted

theorem upsert_new (key : Row → Key) (row : Row) (table : List Row)
    (absent : ∀ other ∈ table, key other ≠ key row) : upsert key row table = table ++ [row] := by
  unfold upsert
  rw [if_neg]
  simpa using absent

variable {row : Row} {key : Row → Key} {table : List Row}

@[simp] theorem mem_upsert {other : Row} :
    other ∈ upsert key row table ↔ other = row ∨ (other ∈ table ∧ key other ≠ key row) := by
  unfold upsert
  split_ifs with present
  · simp only [List.any_eq_true, decide_eq_true_eq] at present
    obtain ⟨first, inTable, sameKey⟩ := present
    constructor
    · intro member
      obtain ⟨source, inSource, image⟩ := List.mem_map.mp member
      by_cases same : key source = key row
      · rw [if_pos same] at image
        exact .inl image.symm
      · rw [if_neg same] at image
        subst image
        exact .inr ⟨inSource, same⟩
    · rintro (rfl | ⟨inTable, different⟩)
      · exact List.mem_map.mpr ⟨first, inTable, if_pos sameKey⟩
      · exact List.mem_map.mpr ⟨other, inTable, if_neg different⟩
  · have absent : ∀ found ∈ table, key found ≠ key row := by simpa using present
    rw [List.mem_append, List.mem_singleton]
    constructor
    · rintro (inTable | rfl)
      · exact .inr ⟨inTable, absent other inTable⟩
      · exact .inl rfl
    · rintro (rfl | ⟨inTable, different⟩)
      · exact .inr rfl
      · exact .inl inTable

theorem upsert_nodup (key : Row → Key) (row : Row) (table : List Row)
    (unique : (table.map key).Nodup) : ((upsert key row table).map key).Nodup := by
  unfold upsert
  split_ifs with present
  · have sameKeys : (table.map fun other => if key other = key row then row else other).map key =
        table.map key := by
      rw [List.map_map]
      apply List.map_congr_left
      intro other _
      by_cases same : key other = key row
      · simp [same]
      · simp [same]
    rw [sameKeys]
    exact unique
  · have absent : key row ∉ table.map key := by
      intro member
      obtain ⟨other, inTable, same⟩ := List.mem_map.mp member
      exact present (List.any_eq_true.mpr ⟨other, inTable, by simpa using same⟩)
    rw [List.map_append, List.map_singleton]
    apply List.nodup_append.mpr
    refine ⟨unique, by simp, ?_⟩
    intro found member other only equal
    rw [List.mem_singleton] at only
    rw [equal, only] at member
    exact absent member

theorem foldl_upsert_nodup (key : Row → Key) (rows table : List Row)
    (unique : (table.map key).Nodup) :
    ((rows.foldl (fun table row => upsert key row table) table).map key).Nodup := by
  induction rows generalizing table with
  | nil => exact unique
  | cons row rows ih => exact ih _ (upsert_nodup key row table unique)

/-- A row of the table after many upserts was written by one of them, or no key of theirs
is its own. -/
theorem mem_foldl_upsert (key : Row → Key) (rows table : List Row)
    (member : row ∈ rows.foldl (fun table row => upsert key row table) table) :
    row ∈ rows ∨ row ∈ table ∧ key row ∉ rows.map key := by
  induction rows generalizing table with
  | nil => exact Or.inr ⟨member, by simp⟩
  | cons first rows ih =>
      rcases ih _ member with written | ⟨old, other⟩
      · exact Or.inl (List.mem_cons_of_mem _ written)
      · rcases mem_upsert.mp old with same | ⟨inTable, different⟩
        · rw [same]
          exact Or.inl List.mem_cons_self
        · refine Or.inr ⟨inTable, ?_⟩
          rw [List.map_cons, List.mem_cons]
          rintro (same | later)
          · exact different same
          · exact other later

/-- A row whose key is not among those written stays. -/
theorem mem_foldl_upsert_of_mem (key : Row → Key) (rows table : List Row) (member : row ∈ table)
    (other : key row ∉ rows.map key) :
    row ∈ rows.foldl (fun table row => upsert key row table) table := by
  induction rows generalizing table with
  | nil => exact member
  | cons first rows ih =>
      rw [List.map_cons, List.mem_cons, not_or] at other
      apply ih _ _ other.2
      exact mem_upsert.mpr (Or.inr ⟨member, other.1⟩)

theorem lookup_map_rewrite (key : Row → Key) (row : Row) (table : List Row) (wanted : Key)
    (different : wanted ≠ key row) :
    lookup key wanted (table.map fun other => if key other = key row then row else other) =
      lookup key wanted table := by
  unfold lookup
  induction table with
  | nil => rfl
  | cons head tail ih =>
      rw [List.map_cons]
      by_cases same : key head = key row
      · have rowOther : ¬key row = wanted := fun equal => different equal.symm
        have headOther : ¬key head = wanted := fun equal => different (equal.symm.trans same)
        rw [if_pos same, List.find?_cons_of_neg (by simpa using rowOther),
          List.find?_cons_of_neg (by simpa using headOther)]
        exact ih
      · rw [if_neg same]
        by_cases found : key head = wanted
        · rw [List.find?_cons_of_pos (by simpa using found),
            List.find?_cons_of_pos (by simpa using found)]
        · rw [List.find?_cons_of_neg (by simpa using found),
            List.find?_cons_of_neg (by simpa using found)]
          exact ih

theorem lookup_upsert_other (key : Row → Key) (row : Row) (table : List Row) (wanted : Key)
    (different : wanted ≠ key row) :
    lookup key wanted (upsert key row table) = lookup key wanted table := by
  unfold upsert
  split_ifs with present
  · exact lookup_map_rewrite key row table wanted different
  · have rowOther : ¬key row = wanted := fun equal => different equal.symm
    simp [lookup, List.find?_append, rowOther]

theorem lookup_upsert_same (key : Row → Key) (row : Row) (table : List Row) :
    lookup key (key row) (upsert key row table) = some row := by
  cases found : lookup key (key row) (upsert key row table) with
  | none =>
      have member : row ∈ upsert key row table := by simp
      simpa using List.find?_eq_none.mp found row member
  | some other =>
      have member := List.mem_of_find?_eq_some found
      have sameKey : key other = key row := by simpa using List.find?_some found
      rcases mem_upsert.mp member with equal | ⟨_, different⟩
      · rw [equal]
      · exact absurd sameKey different

theorem lookup_eq_some_mem {wanted : Key} (found : lookup key wanted table = some row) :
    row ∈ table ∧ key row = wanted :=
  ⟨List.mem_of_find?_eq_some found, by simpa using List.find?_some found⟩

theorem lookup_of_mem (unique : (table.map key).Nodup) (member : row ∈ table) :
    lookup key (key row) table = some row := by
  induction table with
  | nil => exact absurd member List.not_mem_nil
  | cons head tail ih =>
      rw [List.map_cons, List.nodup_cons] at unique
      unfold lookup at ih ⊢
      rcases List.mem_cons.mp member with rfl | later
      · rw [List.find?_cons_of_pos (by simp)]
      · have other : key head ≠ key row := by
          intro same
          exact unique.1 (same ▸ List.mem_map_of_mem later)
        rw [List.find?_cons_of_neg (by simpa using other)]
        exact ih unique.2 later

/-- A selection that no row of the written key satisfies is left alone. -/
theorem filter_upsert_of_disjoint (key : Row → Key) (row : Row) (table : List Row)
    (select : Row → Bool) (disjoint : ∀ other, key other = key row → select other = false) :
    (upsert key row table).filter select = table.filter select := by
  have rowOut : select row = false := disjoint row rfl
  unfold upsert
  split_ifs with present
  · clear present
    induction table with
    | nil => rfl
    | cons head tail ih =>
        rw [List.map_cons]
        by_cases same : key head = key row
        · have headOut := disjoint head same
          simp [same, rowOut, headOut, ih]
        · rw [if_neg same, List.filter_cons, List.filter_cons, ih]
  · simp [List.filter_append, rowOut]

def keepFirst (key : Row → Key) (kept : List Row) (row : Row) : List Row :=
  if kept.any (fun other => key other = key row) then kept else kept ++ [row]

def firsts (key : Row → Key) (rows : List Row) : List Row := rows.foldl (keepFirst key) []

section Firsts

variable (key : Row → Key) (rows : List Row)

theorem firsts_append (row : Row) :
    firsts key (rows ++ [row]) = keepFirst key (firsts key rows) row := by
  unfold firsts
  rw [List.foldl_append, List.foldl_cons, List.foldl_nil]

theorem keep_first_old {kept : List Row} {row other : Row} (member : other ∈ kept)
    (same : key other = key row) : keepFirst key kept row = kept := by
  unfold keepFirst
  rw [if_pos]
  simpa using ⟨other, member, same⟩

theorem keep_first_new {kept : List Row} {row : Row} (absent : ∀ other ∈ kept, key other ≠ key row) :
    keepFirst key kept row = kept ++ [row] := by
  unfold keepFirst
  rw [if_neg]
  simpa using absent

theorem firsts_nodup : ((firsts key rows).map key).Nodup := by
  induction rows using List.reverseRecOn with
  | nil => exact List.nodup_nil
  | append_singleton rows row ih =>
      rw [firsts_append]
      by_cases present : ∃ other ∈ firsts key rows, key other = key row
      · obtain ⟨other, member, same⟩ := present
        rw [keep_first_old key member same]
        exact ih
      · have absent : ∀ other ∈ firsts key rows, key other ≠ key row :=
          fun other member same => present ⟨other, member, same⟩
        rw [keep_first_new key absent, List.map_append, List.map_singleton]
        apply List.nodup_append.mpr
        refine ⟨ih, by simp, ?_⟩
        intro found member other only equal
        obtain ⟨source, inFirsts, isKey⟩ := List.mem_map.mp member
        rw [List.mem_singleton] at only
        exact absent source inFirsts (isKey.trans (equal.trans only))

end Firsts

end Containr.Effect
