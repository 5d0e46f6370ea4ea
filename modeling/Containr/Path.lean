import Containr.Text

/-!
# Unix paths as `std::path` treats them

A path is its text. Repeated separators and inner `.` segments are skipped when
components are compared, and stay in the text.
-/

namespace Containr.Path

inductive Component where
  | rootDir | curDir | parentDir
  | normal (name : List Char)
deriving DecidableEq, Repr

def segments : List Char → List (List Char)
  | [] => [[]]
  | ch :: rest =>
      match segments rest with
      | [] => [[ch]]
      | first :: others => if ch = '/' then [] :: first :: others else (ch :: first) :: others

def isAbsolute (path : String) : Bool := Text.startsWith path "/"

def skipped (segment : List Char) : Bool := segment = [] || segment = ['.']

def component (segment : List Char) : Component :=
  if segment = ['.', '.'] then .parentDir else .normal segment

/-- `Path::components`. A `.` counts only at the start of a relative path. -/
def components (path : String) : List Component :=
  let pieces := segments path.toList
  let lead :=
    if isAbsolute path then [.rootDir] else if pieces.head? = some ['.'] then [.curDir] else []
  lead ++ (pieces.filter fun segment => !skipped segment).map component

/-- `Path::join`: an absolute right side replaces the left one. -/
def join (base path : String) : String :=
  if isAbsolute path then path
  else if base.isEmpty || base.toList.getLast? = some '/' then base ++ path
  else base ++ "/" ++ path

/-- `Path::starts_with`, component by component. -/
def startsWith (path front : String) : Bool := (components front).isPrefixOf (components path)

/-- `Path::strip_prefix`: the text left after the components of `front`. -/
def stripFront (path front : String) : Option String :=
  if startsWith path front then
    let names := (segments front.toList).filter fun segment => !skipped segment
    let rec drop : Nat → List (List Char) → List (List Char)
      | _, [] => []
      | count, segment :: rest =>
          if skipped segment then drop count rest
          else match count with
            | 0 => segment :: rest
            | count + 1 => drop count rest
    let left := (drop names.length (segments path.toList)).reverse.dropWhile skipped |>.reverse
    some (Text.join "/" (left.map String.ofList))
  else none

/-- `Path::file_name`. -/
def fileName (path : String) : Option String :=
  match (components path).getLast? with
  | some (.normal name) => some (String.ofList name)
  | _ => none

/-- `path.components().all(|c| matches!(c, Normal(_) | CurDir))`. -/
def descends (path : String) : Bool :=
  (components path).all fun
    | .normal _ | .curDir => true
    | .rootDir | .parentDir => false

/-- `Path::parent`, as far as its components go. -/
def parent (parts : List Component) : Option (List Component) :=
  match parts.getLast? with
  | none | some .rootDir => none
  | some _ => some parts.dropLast

def mentionsParent (path : String) : Bool := (components path).any (· = .parentDir)

example : stripFront "ctx//a/./b/" "ctx" = some "a/./b" := by decide +kernel

structure PlainName (name : String) : Prop where
  nonempty : name.toList ≠ []
  noSeparator : '/' ∉ name.toList
  notCurDir : name.toList ≠ ['.']
  notParentDir : name.toList ≠ ['.', '.']

theorem segments_ne_nil (chars : List Char) : segments chars ≠ [] := by
  cases chars with
  | nil => simp [segments]
  | cons ch rest =>
      unfold segments
      split
      · simp
      · split_ifs
        · simp
        · simp

theorem segments_separator (back : List Char) : segments ('/' :: back) = [] :: segments back := by
  have nonempty := segments_ne_nil back
  rw [segments]
  cases pieces : segments back with
  | nil => exact absurd pieces nonempty
  | cons first others => rfl

theorem segments_append_separator (front back : List Char) :
    segments (front ++ '/' :: back) = segments front ++ segments back := by
  induction front with
  | nil => exact segments_separator back
  | cons ch rest ih =>
      have nonempty := segments_ne_nil rest
      rw [List.cons_append, segments, ih, segments]
      cases pieces : segments rest with
      | nil => exact absurd pieces nonempty
      | cons first others =>
          dsimp only [List.cons_append]
          split_ifs
          · rfl
          · rfl

theorem segments_plain {chars : List Char} (noSeparator : '/' ∉ chars) :
    segments chars = [chars] := by
  induction chars with
  | nil => rfl
  | cons ch rest ih =>
      have different : ch ≠ '/' := fun same => noSeparator (by simp [same])
      have others : '/' ∉ rest := fun member => noSeparator (List.mem_cons_of_mem ch member)
      rw [segments, ih others]
      simp [different]

def assemble (absolute : Bool) (pieces : List (List Char)) : List Component :=
  (if absolute then [.rootDir] else if pieces.head? = some ['.'] then [.curDir] else []) ++
    (pieces.filter fun segment => !skipped segment).map component

theorem components_eq (path : String) :
    components path = assemble (isAbsolute path) (segments path.toList) := rfl

theorem assemble_append (absolute : Bool) {pieces : List (List Char)} (nonempty : pieces ≠ [])
    (more : List (List Char)) :
    assemble absolute (pieces ++ more) =
      assemble absolute pieces ++ (more.filter fun segment => !skipped segment).map component := by
  unfold assemble
  rw [List.head?_append_of_ne_nil _ nonempty, List.filter_append, List.map_append,
    List.append_assoc]

theorem PlainName.kept {name : String} (plain : PlainName name) :
    ([name.toList].filter fun segment => !skipped segment).map component =
      [Component.normal name.toList] := by
  have notSkipped : skipped name.toList = false := by
    simp [skipped, plain.nonempty, plain.notCurDir]
  simp [notSkipped, component, plain.notParentDir]

theorem PlainName.relative {name : String} (plain : PlainName name) : isAbsolute name = false := by
  cases absolute : isAbsolute name with
  | false => rfl
  | true =>
      obtain ⟨rest, isRest⟩ := Text.starts_with_iff.mp absolute
      have member : '/' ∈ name.toList := by simp [isRest]
      exact absurd member plain.noSeparator

theorem is_absolute_append {base : String} (nonempty : base ≠ "") (more : String) :
    isAbsolute (base ++ more) = isAbsolute base := by
  unfold isAbsolute Text.startsWith
  have chars : base.toList ≠ [] := by simpa using nonempty
  rw [String.toList_append]
  cases pieces : base.toList with
  | nil => exact absurd pieces chars
  | cons ch rest => simp [List.isPrefixOf]

theorem components_join {base name : String} (plain : PlainName name) :
    components (join base name) = components base ++ [.normal name.toList] := by
  have alone : segments name.toList = [name.toList] := segments_plain plain.noSeparator
  unfold join
  rw [if_neg (by simp [plain.relative])]
  by_cases empty : base = ""
  · subst empty
    have head : ([name.toList] : List (List Char)).head? ≠ some ['.'] := by
      simpa using plain.notCurDir
    rw [if_pos (by simp)]
    have bare : components ("" ++ name) = components name := by simp
    rw [bare, components_eq, alone, plain.relative]
    unfold assemble
    rw [if_neg head, plain.kept]
    rfl
  · by_cases ended : base.toList.getLast? = some '/'
    · rw [if_pos (by simp [ended])]
      obtain ⟨front, isFront⟩ := List.getLast?_eq_some_iff.mp ended
      have whole : segments (base ++ name).toList = segments front ++ [name.toList] := by
        rw [String.toList_append, isFront, List.append_assoc]
        exact (segments_append_separator front name.toList).trans (by rw [alone])
      have before : segments base.toList = segments front ++ [[]] := by
        rw [isFront]
        exact segments_append_separator front []
      have blank : (([[]] : List (List Char)).filter fun segment => !skipped segment) = [] := by
        decide
      rw [components_eq, components_eq, is_absolute_append empty, whole, before,
        assemble_append _ (segments_ne_nil front), assemble_append _ (segments_ne_nil front),
        plain.kept, blank]
      simp
    · have apart : ¬((base.isEmpty || decide (base.toList.getLast? = some '/')) = true) := by
        simp [empty, ended]
      rw [if_neg apart]
      have whole : segments (base ++ "/" ++ name).toList = segments base.toList ++ [name.toList] := by
        rw [String.toList_append, String.toList_append, List.append_assoc]
        exact (segments_append_separator base.toList name.toList).trans (by rw [alone])
      have absolute : isAbsolute (base ++ "/" ++ name) = isAbsolute base := by
        rw [String.append_assoc, is_absolute_append empty]
      rw [components_eq, components_eq, absolute, whole,
        assemble_append _ (segments_ne_nil base.toList), plain.kept]

theorem starts_with_iff {path front : String} :
    startsWith path front = true ↔ components front <+: components path := by
  unfold startsWith
  exact List.isPrefixOf_iff_prefix

theorem starts_with_self (path : String) : startsWith path path = true :=
  starts_with_iff.mpr (List.prefix_refl _)

theorem component_cases (segment : List Char) :
    component segment = .parentDir ∨ component segment = .normal segment := by
  unfold component
  split_ifs
  · exact Or.inl rfl
  · exact Or.inr rfl

theorem is_absolute_iff (path : String) :
    isAbsolute path = true ↔ (components path).head? = some .rootDir := by
  rw [components_eq]
  unfold assemble
  cases absolute : isAbsolute path with
  | true => simp
  | false =>
      have relative : ¬∃ segment, component segment = .rootDir := by
        intro found
        obtain ⟨segment, same⟩ := found
        rcases component_cases segment with parent | normal
        · rw [same] at parent
          cases parent
        · rw [same] at normal
          cases normal
      simp only [Bool.false_eq_true, if_false, false_iff]
      split_ifs with current
      · simp
      · rw [List.nil_append, List.head?_map]
        intro found
        obtain ⟨segment, -, same⟩ := Option.map_eq_some_iff.mp found
        exact relative ⟨segment, same⟩

theorem tail_components {path : String} {part : Component} (member : part ∈ (components path).tail) :
    ∃ segment, part = component segment := by
  rw [components_eq] at member
  unfold assemble at member
  have mapped : ∀ pieces : List (List Char), part ∈ pieces.map component →
      ∃ segment, part = component segment := by
    intro pieces inside
    obtain ⟨segment, -, same⟩ := List.mem_map.mp inside
    exact ⟨segment, same.symm⟩
  split_ifs at member
  · exact mapped _ member
  · exact mapped _ member
  · exact mapped _ (List.mem_of_mem_tail member)

/-- Behind a front there are only names in a path without `..`. -/
theorem names_behind {path : String} {front rest : List Component}
    (whole : components path = front ++ rest) (nonempty : front ≠ [])
    (noParent : .parentDir ∉ components path) :
    ∃ names : List (List Char), rest = names.map Component.normal := by
  have every : ∀ part ∈ rest, ∃ name, Component.normal name = part := by
    intro part member
    have inTail : part ∈ (components path).tail := by
      rw [whole, List.tail_append_of_ne_nil nonempty]
      exact List.mem_append_right _ member
    have inside : part ∈ components path := List.mem_of_mem_tail inTail
    obtain ⟨segment, same⟩ := tail_components inTail
    rcases component_cases segment with parent | normal
    · rw [same, parent] at inside
      exact absurd inside noParent
    · exact ⟨segment, normal.symm.trans same.symm⟩
  clear whole
  induction rest with
  | nil => exact ⟨[], rfl⟩
  | cons part rest ih =>
      obtain ⟨name, same⟩ := every part List.mem_cons_self
      obtain ⟨names, others⟩ := ih fun other member => every other (List.mem_cons_of_mem part member)
      exact ⟨name :: names, by rw [others, ← same, List.map_cons]⟩

end Containr.Path
