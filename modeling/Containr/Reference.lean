import Mathlib.Data.List.Induction

/-!
# Where a URL reference leads

Reference resolution as browsers do it, for a base whose scheme is `http` or `https`, as far
as it decides the scheme and the authority (host and port) of the result. A backslash counts
as a slash, tabs and newlines are taken out anywhere, and blanks and control characters at
both ends.
-/

namespace Containr.Reference

/-- `none`: a URL without an authority. -/
structure Target where
  scheme : List Char
  authority : Option (List Char)
deriving DecidableEq, Repr

def isSlash (ch : Char) : Bool := ch = '/' || ch = '\\'

def isTabOrNewline (ch : Char) : Bool := ch = '\t' || ch = '\n' || ch = '\r'

def isControlOrBlank (ch : Char) : Bool := ch.toNat ≤ 32

def isSchemeChar (ch : Char) : Bool := ch.isAlphanum || ch = '+' || ch = '-' || ch = '.'

def cleaned (reference : List Char) : List Char :=
  (((reference.dropWhile isControlOrBlank).reverse.dropWhile isControlOrBlank).reverse).filter
    fun ch => !isTabOrNewline ch

def splitScheme : List Char → Option (List Char × List Char)
  | [] => none
  | first :: rest =>
      if first.isAlpha then
        match rest.span isSchemeChar with
        | (name, ':' :: more) => some ((first :: name).map Char.toLower, more)
        | _ => none
      else none

def upToPath (slash : Char → Bool) (rest : List Char) : List Char :=
  rest.takeWhile fun ch => !(slash ch || ch = '?' || ch = '#')

def authorityOf (rest : List Char) : List Char := upToPath isSlash (rest.dropWhile isSlash)

/-- Without a scheme: two slashes begin an authority, anything else is a path, a query or a
fragment of the base. -/
def relative (base : Target) (rest : List Char) : Target :=
  match rest with
  | first :: second :: more =>
      if isSlash first && isSlash second then { base with authority := some (authorityOf more) }
      else base
  | _ => base

def slashedSchemes : List (List Char) :=
  [['h', 't', 't', 'p'], ['h', 't', 't', 'p', 's'], ['w', 's'], ['w', 's', 's'], ['f', 't', 'p']]

/-- Other schemes need both slashes, and `file` alone knows the backslash. -/
def otherAuthority (scheme rest : List Char) : Option (List Char) :=
  let slash (ch : Char) := if scheme = ['f', 'i', 'l', 'e'] then isSlash ch else ch = '/'
  match rest with
  | first :: second :: more =>
      if slash first && slash second then some (upToPath slash more) else none
  | _ => none

def absolute (base : Target) (scheme rest : List Char) : Target :=
  if scheme = base.scheme then
    match rest with
    | '/' :: '/' :: more => ⟨scheme, some (authorityOf more)⟩
    | _ => relative base rest
  else if slashedSchemes.contains scheme then ⟨scheme, some (authorityOf rest)⟩
  else ⟨scheme, otherAuthority scheme rest⟩

def resolve (base : Target) (reference : List Char) : Target :=
  let chars := cleaned reference
  match splitScheme chars with
  | none => relative base chars
  | some (scheme, rest) => absolute base scheme rest

variable {base : Target} {rest : List Char}

theorem drop_rooted (rest : List Char) :
    ('/' :: rest).dropWhile isControlOrBlank = '/' :: rest :=
  List.dropWhile_cons_of_neg (by decide)

theorem trailing_rooted (rest : List Char) : ∃ front, front <+: rest ∧
    (('/' :: rest).reverse.dropWhile isControlOrBlank).reverse = '/' :: front := by
  induction rest using List.reverseRecOn with
  | nil => exact ⟨[], List.nil_prefix, by decide⟩
  | append_singleton rest last ih =>
      have turned : ('/' :: (rest ++ [last])).reverse = last :: ('/' :: rest).reverse := by simp
      by_cases blank : isControlOrBlank last = true
      · obtain ⟨front, within, same⟩ := ih
        refine ⟨front, within.trans (List.prefix_append _ _), ?_⟩
        rw [turned, List.dropWhile_cons_of_pos blank]
        exact same
      · refine ⟨rest ++ [last], List.prefix_refl _, ?_⟩
        rw [turned, List.dropWhile_cons_of_neg blank, ← turned, List.reverse_reverse]

/-- Where no tab or newline is taken out, what follows the first slash stays in place. -/
theorem cleaned_rooted (plain : ∀ ch ∈ rest, isTabOrNewline ch = false) :
    ∃ front, front <+: rest ∧ cleaned ('/' :: rest) = '/' :: front := by
  obtain ⟨front, within, trimmed⟩ := trailing_rooted rest
  refine ⟨front, within, ?_⟩
  have kept : ('/' :: front).filter (fun ch => !isTabOrNewline ch) = '/' :: front := by
    rw [List.filter_eq_self]
    intro ch member
    rcases List.mem_cons.mp member with isRoot | inFront
    · rw [isRoot]
      decide
    · simp [plain ch (within.subset inFront)]
  unfold cleaned
  rw [drop_rooted, trimmed, kept]

theorem relative_rooted (single : ∀ ch, rest.head? = some ch → isSlash ch = false) :
    relative base ('/' :: rest) = base := by
  cases rest with
  | nil => rfl
  | cons second more =>
      have other := single second rfl
      simp [relative, other]

/-- One slash, no second one after it, and nothing that is taken out in between: the
reference stays on the base's scheme, host and port. -/
theorem resolve_rooted (base : Target) (plain : ∀ ch ∈ rest, isTabOrNewline ch = false)
    (single : ∀ ch, rest.head? = some ch → isSlash ch = false) :
    resolve base ('/' :: rest) = base := by
  obtain ⟨front, within, clean⟩ := cleaned_rooted plain
  have noScheme : splitScheme ('/' :: front) = none := by simp [splitScheme]
  have frontSingle : ∀ ch, front.head? = some ch → isSlash ch = false := by
    intro ch isHead
    apply single
    obtain ⟨more, whole⟩ := within
    rw [← whole, List.head?_append, isHead]
    rfl
  unfold resolve
  rw [clean]
  dsimp only
  rw [noScheme]
  exact relative_rooted frontSingle

/-! A second slash in any spelling leads to another host. -/

example : resolve ⟨"https".toList, some "app.test".toList⟩ "/\t\\evil.test/x".toList =
    ⟨"https".toList, some "evil.test".toList⟩ := by decide

end Containr.Reference
