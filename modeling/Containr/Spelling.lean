import Containr.Path

/-!
# Plain spellings of paths

An absolute path has many spellings. The plain one has a separator before each component
and nothing else, and paths of the same components share it. Between plain spellings a
comparison of texts says what a comparison of components says.
-/

namespace Containr.Path

def Component.text : Component → List Char
  | .rootDir => []
  | .curDir => ['.']
  | .parentDir => ['.', '.']
  | .normal name => name

def spell (parts : List Component) : List Char := parts.flatMap fun part => '/' :: part.text

def inner (path : String) : List Component := (components path).tail

def plainSpelling (path : String) : String :=
  if inner path = [] then "/" else String.ofList (spell (inner path))

structure Component.Kept (part : Component) : Prop where
  noSeparator : '/' ∉ part.text
  notSkipped : skipped part.text = false
  itself : component part.text = part

theorem segments_no_separator (chars : List Char) :
    ∀ segment ∈ segments chars, '/' ∉ segment := by
  induction chars with
  | nil => simp [segments]
  | cons ch rest ih =>
      unfold segments
      cases pieces : segments rest with
      | nil => exact absurd pieces (segments_ne_nil rest)
      | cons first others =>
          rw [pieces] at ih
          dsimp only
          by_cases isSeparator : ch = '/'
          · rw [if_pos isSeparator]
            intro segment member
            rcases List.mem_cons.mp member with same | later
            · simp [same]
            · exact ih segment later
          · rw [if_neg isSeparator]
            intro segment member
            rcases List.mem_cons.mp member with same | later
            · have inFirst := ih first List.mem_cons_self
              rw [same, List.mem_cons]
              rintro (isHead | inside)
              · exact isSeparator isHead.symm
              · exact inFirst inside
            · exact ih segment (List.mem_cons_of_mem _ later)

theorem component_kept {segment : List Char} (noSeparator : '/' ∉ segment)
    (notSkipped : skipped segment = false) : (component segment).Kept := by
  unfold component
  by_cases isParent : segment = ['.', '.']
  · rw [if_pos isParent]
    exact ⟨by decide, by decide, by decide⟩
  · rw [if_neg isParent]
    refine ⟨noSeparator, notSkipped, ?_⟩
    unfold component Component.text
    dsimp only
    rw [if_neg isParent]

theorem components_absolute {path : String} (absolute : isAbsolute path = true) :
    components path = .rootDir :: inner path := by
  unfold inner components
  rw [absolute]
  rfl

theorem inner_kept {path : String} (absolute : isAbsolute path = true) :
    ∀ part ∈ inner path, part.Kept := by
  intro part member
  have tail : inner path =
      ((segments path.toList).filter fun segment => !skipped segment).map component := by
    unfold inner components
    rw [absolute]
    rfl
  rw [tail] at member
  obtain ⟨segment, inSegments, isPart⟩ := List.mem_map.mp member
  obtain ⟨among, notSkipped⟩ := List.mem_filter.mp inSegments
  rw [← isPart]
  exact component_kept (segments_no_separator _ segment among) (by simpa using notSkipped)

variable {parts : List Component}

theorem segments_spelled {part : Component} (first : part.Kept) (kept : ∀ other ∈ parts, other.Kept) :
    segments (part.text ++ spell parts) = part.text :: parts.map Component.text := by
  induction parts generalizing part with
  | nil =>
      have bare : part.text ++ spell [] = part.text := by simp [spell]
      rw [bare]
      exact segments_plain first.noSeparator
  | cons next parts ih =>
      have rest := ih (kept next List.mem_cons_self) fun other member =>
        kept other (List.mem_cons_of_mem _ member)
      have split : part.text ++ spell (next :: parts) =
          part.text ++ '/' :: (next.text ++ spell parts) := by simp [spell]
      rw [split, segments_append_separator, segments_plain first.noSeparator, rest]
      rfl

theorem segments_spell (kept : ∀ part ∈ parts, part.Kept) (nonempty : parts ≠ []) :
    segments (spell parts) = [] :: parts.map Component.text := by
  cases parts with
  | nil => exact absurd rfl nonempty
  | cons part parts =>
      have split : spell (part :: parts) = '/' :: (part.text ++ spell parts) := by simp [spell]
      rw [split, segments_separator, segments_spelled (kept part List.mem_cons_self) fun other member =>
        kept other (List.mem_cons_of_mem _ member)]
      rfl

theorem filter_kept (kept : ∀ part ∈ parts, part.Kept) :
    ((parts.map Component.text).filter fun segment => !skipped segment).map component = parts := by
  induction parts with
  | nil => rfl
  | cons part parts ih =>
      have first := kept part List.mem_cons_self
      have rest := ih fun other member => kept other (List.mem_cons_of_mem _ member)
      rw [List.map_cons, List.filter_cons_of_pos (by simp [first.notSkipped]), List.map_cons, rest,
        first.itself]

theorem spell_inj {one other : List Component} (keptOne : ∀ part ∈ one, part.Kept)
    (keptOther : ∀ part ∈ other, part.Kept) (same : spell one = spell other) : one = other := by
  cases one with
  | nil =>
      cases other with
      | nil => rfl
      | cons part parts => simp [spell] at same
  | cons part parts =>
      cases other with
      | nil => simp [spell] at same
      | cons next others =>
          have read := congrArg segments same
          rw [segments_spell keptOne (List.cons_ne_nil _ _),
            segments_spell keptOther (List.cons_ne_nil _ _)] at read
          have texts := (List.cons.inj read).2
          rw [← filter_kept keptOne, ← filter_kept keptOther, texts]

section Plain

variable {path other : String}

theorem plain_spelling_text (below : inner path ≠ []) :
    (plainSpelling path).toList = spell (inner path) := by
  unfold plainSpelling
  rw [if_neg below, String.toList_ofList]

theorem plain_spelling_absolute (path : String) : isAbsolute (plainSpelling path) = true := by
  unfold isAbsolute Text.startsWith
  by_cases root : inner path = []
  · unfold plainSpelling
    rw [if_pos root]
    decide
  · rw [plain_spelling_text root]
    cases parts : inner path with
    | nil => exact absurd parts root
    | cons part parts => simp [spell]

theorem components_plain_spelling (absolute : isAbsolute path = true) :
    components (plainSpelling path) = components path := by
  rw [components_absolute absolute]
  by_cases root : inner path = []
  · unfold plainSpelling
    rw [if_pos root, root]
    decide
  · rw [components_eq, plain_spelling_absolute, plain_spelling_text root,
      segments_spell (inner_kept absolute) root]
    unfold assemble
    rw [if_pos rfl, List.filter_cons_of_neg (by simp [skipped]), filter_kept (inner_kept absolute)]
    rfl

end Plain

/-- One list of components starts another exactly when the spelling of the one, closed by a
separator, starts that of the other, or is all of it. -/
theorem spell_prefix_iff {front : List Component} (keptFront : ∀ part ∈ front, part.Kept)
    (kept : ∀ part ∈ parts, part.Kept) (nonempty : parts ≠ []) :
    (spell parts = spell front ∨ spell front ++ ['/'] <+: spell parts) ↔ front <+: parts := by
  constructor
  · intro starts
    rcases starts with same | longer
    · have whole : parts = front := spell_inj kept keptFront same
      simp [whole]
    · by_cases root : front = []
      · simp [root]
      · obtain ⟨rest, whole⟩ := longer
        have read : segments (spell parts) = segments (spell front) ++ segments rest := by
          rw [← whole, List.append_assoc]
          exact segments_append_separator _ _
        rw [segments_spell kept nonempty, segments_spell keptFront root, List.cons_append] at read
        have texts := (List.cons.inj read).2
        have names := filter_kept kept
        rw [texts, List.filter_append, List.map_append, filter_kept keptFront] at names
        exact ⟨_, names⟩
  · intro starts
    obtain ⟨rest, whole⟩ := starts
    rw [← whole]
    cases rest with
    | nil =>
        left
        rw [List.append_nil]
    | cons next rest =>
        right
        refine ⟨next.text ++ spell rest, ?_⟩
        simp [spell]

theorem trim_end_spell (kept : ∀ part ∈ parts, part.Kept) :
    ((spell parts).reverse.dropWhile fun ch => decide (ch = '/')).reverse = spell parts := by
  induction parts using List.reverseRecOn with
  | nil => rfl
  | append_singleton parts last _ =>
      have isKept := kept last (by simp)
      have whole : spell (parts ++ [last]) = spell parts ++ '/' :: last.text := by simp [spell]
      cases turned : last.text.reverse with
      | nil =>
          have empty : last.text = [] := by simpa using turned
          have notSkipped := isKept.notSkipped
          rw [empty] at notSkipped
          cases notSkipped
      | cons ch rest =>
          have member : ch ∈ last.text := List.mem_reverse.mp (by simp [turned])
          have different : ¬decide (ch = '/') = true := by
            intro same
            rw [of_decide_eq_true same] at member
            exact isKept.noSeparator member
          rw [whole, List.reverse_append, List.reverse_cons, turned, List.append_assoc,
            List.cons_append, List.dropWhile_cons, if_neg different]
          have back : rest.reverse ++ [ch] = last.text := by
            rw [← List.reverse_cons, ← turned, List.reverse_reverse]
          simp [← back]

section Plain

variable {path target : String}

theorem trim_end_plain_spelling (absolute : isAbsolute target = true) :
    (Text.trimEndMatches (plainSpelling target) '/').toList = spell (inner target) := by
  unfold Text.trimEndMatches
  rw [String.toList_ofList]
  by_cases root : inner target = []
  · rw [root]
    unfold plainSpelling
    rw [if_pos root]
    decide
  · rw [plain_spelling_text root]
    exact trim_end_spell (inner_kept absolute)

theorem ends_with_separator_iff (absolute : isAbsolute path = true) :
    Text.endsWith (plainSpelling path) "/" = true ↔ inner path = [] := by
  constructor
  · intro ends
    by_contra below
    have trimmed := trim_end_plain_spelling absolute
    unfold Text.trimEndMatches at trimmed
    unfold Text.endsWith at ends
    rw [String.toList_ofList, plain_spelling_text below] at trimmed
    rw [plain_spelling_text below, List.isPrefixOf_iff_prefix] at ends
    obtain ⟨rest, turned⟩ := ends
    have front : (spell (inner path)).reverse = '/' :: rest := turned.symm
    rw [front, List.dropWhile_cons_of_pos (by simp)] at trimmed
    have shorter := (List.dropWhile_suffix (l := rest) fun ch => decide (ch = '/')).length_le
    have length := congrArg List.length trimmed
    have whole := congrArg List.length front
    rw [List.length_reverse] at length whole
    rw [List.length_cons] at whole
    omega
  · intro root
    unfold plainSpelling
    rw [if_pos root]
    decide

/-- The comparison of texts that asks whether a path is at or below a target. -/
theorem plain_below_iff (absolute : isAbsolute path = true) (rooted : isAbsolute target = true)
    (below : inner path ≠ []) :
    (plainSpelling path = Text.trimEndMatches (plainSpelling target) '/' ∨
      Text.startsWith (plainSpelling path)
        (Text.trimEndMatches (plainSpelling target) '/' ++ "/") = true) ↔
      startsWith path target = true := by
  have texts : plainSpelling path = Text.trimEndMatches (plainSpelling target) '/' ↔
      spell (inner path) = spell (inner target) := by
    rw [← String.toList_inj, plain_spelling_text below, trim_end_plain_spelling rooted]
  have fronts : Text.startsWith (plainSpelling path)
      (Text.trimEndMatches (plainSpelling target) '/' ++ "/") = true ↔
      spell (inner target) ++ ['/'] <+: spell (inner path) := by
    unfold Text.startsWith
    rw [List.isPrefixOf_iff_prefix, String.toList_append, plain_spelling_text below,
      trim_end_plain_spelling rooted]
    rfl
  rw [texts, fronts, spell_prefix_iff (inner_kept rooted) (inner_kept absolute) below,
    starts_with_iff, components_absolute absolute, components_absolute rooted]
  simp

end Plain

end Containr.Path
