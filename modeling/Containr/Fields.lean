import Containr.Text

/-!
# Fields between marks

A text is cut at each mark, each field is trimmed, and empty fields are dropped. Texts that
are joined by the mark and a blank are cut into the fields of each, in order.
-/

namespace Containr.Text

variable {mark : Char}

theorem pieces_ne_nil (mark : Char) (chars : List Char) : splitAt.pieces mark chars ≠ [] := by
  induction chars with
  | nil => simp [splitAt.pieces]
  | cons ch rest ih =>
      unfold splitAt.pieces
      cases cut : splitAt.pieces mark rest with
      | nil => exact absurd cut ih
      | cons first others =>
          dsimp only
          by_cases isMark : ch = mark
          · simp [isMark]
          · simp [isMark]

theorem pieces_mark (rest : List Char) :
    splitAt.pieces mark (mark :: rest) = [] :: splitAt.pieces mark rest := by
  rw [splitAt.pieces]
  cases cut : splitAt.pieces mark rest with
  | nil => exact absurd cut (pieces_ne_nil mark rest)
  | cons first others => simp

theorem pieces_other {ch : Char} {rest first : List Char} {others : List (List Char)}
    (other : ch ≠ mark) (cut : splitAt.pieces mark rest = first :: others) :
    splitAt.pieces mark (ch :: rest) = (ch :: first) :: others := by
  rw [splitAt.pieces, cut]
  exact if_neg other

theorem pieces_plain {field : List Char} (plain : mark ∉ field) :
    splitAt.pieces mark field = [field] := by
  induction field with
  | nil => rfl
  | cons ch rest ih =>
      have other : ch ≠ mark := fun same => plain (by simp [same])
      have cut := ih fun member => plain (List.mem_cons_of_mem ch member)
      exact pieces_other other cut

theorem pieces_append (front rest : List Char) :
    splitAt.pieces mark (front ++ mark :: rest) =
      splitAt.pieces mark front ++ splitAt.pieces mark rest := by
  induction front with
  | nil => exact pieces_mark rest
  | cons ch front ih =>
      by_cases isMark : ch = mark
      · rw [isMark, List.cons_append, pieces_mark, pieces_mark, ih]
        rfl
      · cases cut : splitAt.pieces mark front with
        | nil => exact absurd cut (pieces_ne_nil mark front)
        | cons first others =>
            rw [cut] at ih
            rw [pieces_other isMark cut, List.cons_append, pieces_other isMark ih]
            rfl

theorem fields_induction (mark : Char) {motive : List Char → Prop}
    (last : ∀ field, mark ∉ field → motive field)
    (more : ∀ field rest, mark ∉ field → motive rest → motive (field ++ mark :: rest))
    (chars : List Char) : motive chars := by
  by_cases inside : mark ∈ chars
  · obtain ⟨field, rest, whole, plain⟩ := List.eq_append_cons_of_mem inside
    have shorter : rest.length < chars.length := by
      rw [whole]
      simp
      omega
    rw [whole]
    exact more field rest plain (fields_induction mark last more rest)
  · exact last chars inside
termination_by chars.length

theorem mark_not_mem_pieces (mark : Char) (chars : List Char) :
    ∀ field ∈ splitAt.pieces mark chars, mark ∉ field := by
  induction chars using fields_induction mark with
  | last field plain =>
      rw [pieces_plain plain]
      simpa using plain
  | more field rest plain ih =>
      rw [pieces_append, pieces_plain plain]
      intro other member
      rcases List.mem_cons.mp member with same | later
      · rw [same]
        exact plain
      · exact ih other later

def Blank (chars : List Char) : Prop := ∀ ch ∈ chars, isWhitespace ch = true

section Trim

variable {spaces chars : List Char}

theorem trim_chars_leading (blank : Blank spaces) :
    trimChars (spaces ++ chars) = trimChars chars := by
  unfold trimChars
  rw [List.dropWhile_append_of_pos blank]

theorem trim_chars_trailing (blank : Blank spaces) :
    trimChars (chars ++ spaces) = trimChars chars := by
  have turned : ∀ ch ∈ spaces.reverse, isWhitespace ch = true := fun ch member =>
    blank ch (List.mem_reverse.mp member)
  unfold trimChars
  rw [List.dropWhile_append]
  by_cases gone : (chars.dropWhile isWhitespace).isEmpty = true
  · rw [if_pos gone, List.isEmpty_iff.mp gone, List.dropWhile_eq_nil_iff.mpr blank]
  · rw [if_neg gone, List.reverse_append, List.dropWhile_append_of_pos turned]

/-- What trimming takes away. -/
theorem trim_chars_split (chars : List Char) :
    ∃ leading trailing, Blank leading ∧ Blank trailing ∧
      chars = leading ++ (trimChars chars ++ trailing) := by
  have front := List.takeWhile_append_dropWhile (p := isWhitespace) (l := chars)
  have back := List.takeWhile_append_dropWhile (p := isWhitespace)
    (l := (chars.dropWhile isWhitespace).reverse)
  have turned := congrArg List.reverse back
  rw [List.reverse_append, List.reverse_reverse] at turned
  refine ⟨chars.takeWhile isWhitespace,
    ((chars.dropWhile isWhitespace).reverse.takeWhile isWhitespace).reverse, ?_, ?_, ?_⟩
  · intro ch member
    exact List.mem_takeWhile_imp member
  · intro ch member
    exact List.mem_takeWhile_imp (List.mem_reverse.mp member)
  · unfold trimChars
    rw [turned, front]

theorem trim_chars_subset (chars : List Char) : trimChars chars ⊆ chars := by
  obtain ⟨leading, trailing, -, -, whole⟩ := trim_chars_split chars
  intro ch member
  rw [whole]
  simp [member]

end Trim

def fields (mark : Char) (chars : List Char) : List (List Char) :=
  ((splitAt.pieces mark chars).map trimChars).filter fun field => !field.isEmpty

section Fields

variable {chars spaces : List Char}

theorem fields_append (front rest : List Char) :
    fields mark (front ++ mark :: rest) = fields mark front ++ fields mark rest := by
  unfold fields
  rw [pieces_append, List.map_append, List.filter_append]

theorem fields_plain (plain : mark ∉ chars) :
    fields mark chars = [trimChars chars].filter fun field => !field.isEmpty := by
  unfold fields
  rw [pieces_plain plain]
  rfl

theorem mark_not_blank (notSpace : isWhitespace mark = false) (blank : Blank spaces) :
    mark ∉ spaces := by
  intro member
  have space := blank mark member
  rw [notSpace] at space
  cases space

theorem fields_leading (notSpace : isWhitespace mark = false) (blank : Blank spaces) :
    fields mark (spaces ++ chars) = fields mark chars := by
  have apart := mark_not_blank notSpace blank
  induction chars using fields_induction mark with
  | last field plain =>
      have both : mark ∉ spaces ++ field := by simp [apart, plain]
      rw [fields_plain both, fields_plain plain, trim_chars_leading blank]
  | more field rest plain _ =>
      have both : mark ∉ spaces ++ field := by simp [apart, plain]
      rw [← List.append_assoc, fields_append, fields_append, fields_plain both, fields_plain plain,
        trim_chars_leading blank]

theorem fields_trailing (notSpace : isWhitespace mark = false) (blank : Blank spaces) :
    fields mark (chars ++ spaces) = fields mark chars := by
  have apart := mark_not_blank notSpace blank
  induction chars using fields_induction mark with
  | last field plain =>
      have both : mark ∉ field ++ spaces := by simp [apart, plain]
      rw [fields_plain both, fields_plain plain, trim_chars_trailing blank]
  | more field rest _ ih =>
      rw [List.append_assoc, List.cons_append, fields_append, fields_append, ih]

theorem fields_trim (notSpace : isWhitespace mark = false) (chars : List Char) :
    fields mark (trimChars chars) = fields mark chars := by
  obtain ⟨leading, trailing, blankLeading, blankTrailing, whole⟩ := trim_chars_split chars
  have removed := @fields_leading mark (trimChars chars ++ trailing) leading notSpace blankLeading
  rw [← whole, fields_trailing notSpace blankTrailing] at removed
  exact removed.symm

theorem fields_field {field : List Char} (member : field ∈ fields mark chars) :
    fields mark field = [field] := by
  obtain ⟨trimmed, nonempty⟩ := List.mem_filter.mp member
  obtain ⟨piece, among, same⟩ := List.mem_map.mp trimmed
  have plain : mark ∉ field := by
    intro inside
    rw [← same] at inside
    exact mark_not_mem_pieces mark chars piece among (trim_chars_subset piece inside)
  have idem : trimChars field = field := by rw [← same, trim_chars_idem]
  rw [fields_plain plain, idem]
  exact List.filter_cons_of_pos nonempty

theorem piece_subset {piece : List Char} (member : piece ∈ splitAt.pieces mark chars) :
    piece ⊆ chars := by
  induction chars using fields_induction mark with
  | last field plain =>
      rw [pieces_plain plain, List.mem_singleton] at member
      rw [member]
      exact List.Subset.refl _
  | more field rest plain ih =>
      rw [pieces_append, pieces_plain plain] at member
      rcases List.mem_cons.mp member with first | later
      · rw [first]
        exact List.subset_append_left _ _
      · intro ch inside
        simp [ih later inside]

theorem field_subset {field : List Char} (member : field ∈ fields mark chars) : field ⊆ chars := by
  obtain ⟨trimmed, -⟩ := List.mem_filter.mp member
  obtain ⟨piece, among, same⟩ := List.mem_map.mp trimmed
  rw [← same]
  intro ch inside
  exact piece_subset among (trim_chars_subset piece inside)

end Fields

/-- `join` with the mark and a blank. -/
def joined (mark : Char) : List (List Char) → List Char
  | [] => []
  | [only] => only
  | first :: rest => first ++ mark :: ' ' :: joined mark rest

theorem fields_joined (notSpace : isWhitespace mark = false) (texts : List (List Char)) :
    fields mark (joined mark texts) = texts.flatMap (fields mark) := by
  induction texts with
  | nil => rfl
  | cons first rest ih =>
      cases rest with
      | nil => simp [joined]
      | cons next others =>
          have blank : Blank [' '] := by
            intro ch member
            rw [List.mem_singleton.mp member]
            decide
          have step := @fields_leading mark (joined mark (next :: others)) [' '] notSpace blank
          have shape : joined mark (first :: next :: others) =
              first ++ mark :: ([' '] ++ joined mark (next :: others)) := rfl
          rw [shape, fields_append, step, ih, ← List.flatMap_cons]

theorem fields_rejoined (notSpace : isWhitespace mark = false) {kept : List (List Char)}
    (single : ∀ field ∈ kept, fields mark field = [field]) :
    fields mark (joined mark kept) = kept := by
  rw [fields_joined notSpace]
  induction kept with
  | nil => rfl
  | cons field rest ih =>
      rw [List.flatMap_cons, single field List.mem_cons_self,
        ih fun other member => single other (List.mem_cons_of_mem _ member)]
      rfl

theorem mem_joined {texts : List (List Char)} {ch : Char} (member : ch ∈ joined mark texts) :
    ch = mark ∨ ch = ' ' ∨ ∃ text ∈ texts, ch ∈ text := by
  induction texts with
  | nil => cases member
  | cons first rest ih =>
      cases rest with
      | nil => exact Or.inr (Or.inr ⟨first, List.mem_cons_self, member⟩)
      | cons next others =>
          have shape : joined mark (first :: next :: others) =
              first ++ mark :: ' ' :: joined mark (next :: others) := rfl
          rw [shape, List.mem_append, List.mem_cons, List.mem_cons] at member
          rcases member with inFirst | isMark | isBlank | later
          · exact Or.inr (Or.inr ⟨first, List.mem_cons_self, inFirst⟩)
          · exact Or.inl isMark
          · exact Or.inr (Or.inl isBlank)
          · rcases ih later with isMark | isBlank | ⟨text, among, inside⟩
            · exact Or.inl isMark
            · exact Or.inr (Or.inl isBlank)
            · exact Or.inr (Or.inr ⟨text, List.mem_cons_of_mem _ among, inside⟩)

end Containr.Text
