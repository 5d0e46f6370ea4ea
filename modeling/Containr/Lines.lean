import Containr.Text

/-!
# Lines

`str::lines`, and the trims of one end. A line ends at `\n`, which may follow a `\r`; the last one
need not end.
-/

namespace Containr.Text

/-- `str::trim_end`. -/
def trimEnd (text : String) : String :=
  String.ofList (text.toList.reverse.dropWhile isWhitespace).reverse

/-- `str::trim_start`. -/
def trimStart (text : String) : String := String.ofList (text.toList.dropWhile isWhitespace)

/-- A line that ended, without the `\r` before its end. -/
def stripReturn (line : List Char) : List Char :=
  if line.getLast? = some '\r' then line.dropLast else line

def linesFrom (front : List Char) : List Char → List (List Char)
  | [] => if front.isEmpty then [] else [front]
  | ch :: rest =>
      if ch = '\n' then stripReturn front :: linesFrom [] rest else linesFrom (front ++ [ch]) rest

/-- `str::lines`. -/
def lines (text : String) : List String := (linesFrom [] text.toList).map String.ofList

example : lines "a\n\nb\r\nc" = ["a", "", "b", "c"] := by decide

section Lines

variable {front line rest : List Char}

theorem lines_from_end (plain : '\n' ∉ line) :
    linesFrom front (line ++ '\n' :: rest) = stripReturn (front ++ line) :: linesFrom [] rest := by
  induction line generalizing front with
  | nil => simp [linesFrom]
  | cons ch line ih =>
      have other : ch ≠ '\n' := fun same => plain (by simp [same])
      have later : '\n' ∉ line := fun member => plain (by simp [member])
      have whole : front ++ ch :: line = front ++ [ch] ++ line := by simp
      rw [List.cons_append, linesFrom, if_neg other, ih later, whole]

theorem lines_from_nil_iff : linesFrom front rest = [] ↔ front = [] ∧ rest = [] := by
  induction rest generalizing front with
  | nil => simp [linesFrom]
  | cons ch rest ih =>
      rw [linesFrom]
      split_ifs
      · simp
      · rw [ih]
        simp

theorem lines_nil_iff {text : String} : lines text = [] ↔ text = "" := by
  unfold lines
  rw [List.map_eq_nil_iff, lines_from_nil_iff]
  simp

theorem mem_strip_return {ch : Char} (member : ch ∈ stripReturn line) : ch ∈ line := by
  unfold stripReturn at member
  split_ifs at member
  · exact List.dropLast_subset _ member
  · exact member

theorem lines_from_plain (plain : '\n' ∉ front) :
    ∀ line ∈ linesFrom front rest, '\n' ∉ line := by
  induction rest generalizing front with
  | nil =>
      intro line member
      rw [linesFrom] at member
      split_ifs at member with nothing
      · simp at member
      · have same : line = front := by simpa using member
        rw [same]
        exact plain
  | cons ch rest ih =>
      intro line member
      rw [linesFrom] at member
      split_ifs at member with ends
      · rcases List.mem_cons.mp member with same | later
        · rw [same]
          exact fun inLine => plain (mem_strip_return inLine)
        · exact ih (by simp) line later
      · have longer : '\n' ∉ front ++ [ch] := by
          intro inFront
          rcases List.mem_append.mp inFront with early | last
          · exact plain early
          · exact ends (List.mem_singleton.mp last).symm
        exact ih longer line member

/-- A line end parts what comes before it from what comes behind. -/
theorem lines_from_split (front line rest : List Char) :
    linesFrom front (line ++ '\n' :: rest) =
      linesFrom front (line ++ ['\n']) ++ linesFrom [] rest := by
  induction line generalizing front with
  | nil => simp [linesFrom]
  | cons ch line ih =>
      simp only [List.cons_append, linesFrom]
      split_ifs
      · rw [ih, List.cons_append]
      · exact ih _

theorem line_end_inj {other back : List Char} (plain : '\n' ∉ line) (otherPlain : '\n' ∉ other)
    (same : line ++ '\n' :: rest = other ++ '\n' :: back) : line = other ∧ rest = back := by
  induction line generalizing other with
  | nil =>
      cases other with
      | nil => simpa using same
      | cons ch other =>
          have first : '\n' = ch := (List.cons.inj same).1
          simp [← first] at otherPlain
  | cons ch line ih =>
      cases other with
      | nil =>
          have first : ch = '\n' := (List.cons.inj same).1
          simp [first] at plain
      | cons first other =>
          obtain ⟨sameFirst, later⟩ := List.cons.inj same
          have inner := ih (fun member => plain (by simp [member]))
            (fun member => otherPlain (by simp [member])) later
          rw [sameFirst, inner.1]
          exact ⟨rfl, inner.2⟩

end Lines

def readLine (line : String) : String := String.ofList (stripReturn line.toList)

/-- The text that the lines make. -/
def written (parts : List String) : List Char := parts.flatMap fun part => part.toList ++ ['\n']

theorem join_written {parts : List String} (nonempty : parts ≠ []) :
    (join "\n" parts ++ "\n").toList = written parts := by
  induction parts with
  | nil => exact absurd rfl nonempty
  | cons first rest ih =>
      cases rest with
      | nil => simp [join, written]
      | cons second rest =>
          have later := ih (by simp)
          rw [String.toList_append] at later
          have whole : written (first :: second :: rest) =
              first.toList ++ '\n' :: written (second :: rest) := by
            simp [written]
          rw [whole, ← later]
          simp [join]

theorem lines_written {parts : List String} (plain : ∀ part ∈ parts, '\n' ∉ part.toList) :
    (linesFrom [] (written parts)).map String.ofList = parts.map readLine := by
  induction parts with
  | nil => rfl
  | cons first rest ih =>
      have whole : written (first :: rest) = first.toList ++ '\n' :: written rest := by
        simp [written]
      rw [whole, lines_from_end (plain first List.mem_cons_self), List.nil_append, List.map_cons,
        List.map_cons, ih fun part member => plain part (List.mem_cons_of_mem first member)]
      rfl

theorem written_inj {parts others : List String} (plain : ∀ part ∈ parts, '\n' ∉ part.toList)
    (otherPlain : ∀ part ∈ others, '\n' ∉ part.toList) (same : written parts = written others) :
    parts = others := by
  induction parts generalizing others with
  | nil =>
      cases others with
      | nil => rfl
      | cons first rest => simp [written] at same
  | cons first rest ih =>
      cases others with
      | nil => simp [written] at same
      | cons other back =>
          have split : first.toList ++ '\n' :: written rest = other.toList ++ '\n' :: written back := by
            simpa [written] using same
          obtain ⟨sameFirst, later⟩ := line_end_inj (plain first List.mem_cons_self)
            (otherPlain other List.mem_cons_self) split
          rw [String.toList_injective sameFirst, ih
            (fun part member => plain part (List.mem_cons_of_mem first member))
            (fun part member => otherPlain part (List.mem_cons_of_mem other member)) later]

/-- Nothing is left of white space. -/
theorem trim_end_empty_iff {text : String} :
    trimEnd text = "" ↔ ∀ ch ∈ text.toList, isWhitespace ch = true := by
  unfold trimEnd
  rw [String.ofList_eq_empty_iff, List.reverse_eq_nil_iff, List.dropWhile_eq_nil_iff]
  simp

end Containr.Text
