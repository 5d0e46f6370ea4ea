import Containr.Affixes
import Containr.Api.Stored
import Containr.Api.Webhooks

/-!
# When two addresses are one repository

`normalize_repo_url` takes the slashes at the end away before the `.git`, and the prefixes in
one order, so its result may still have a slash or a prefix.
-/

namespace Containr.Api.RepoUrls

open Containr.Text Containr.Effect.Program Containr.Api.Services Containr.Api.Webhooks

def repoFronts : List String := ["https://", "http://", "ssh://", "git@", "www."]

structure Bare (text : String) : Prop where
  trimmed : trim text = text
  unprefixed : ∀ front ∈ repoFronts, startsWith text front = false
  unslashed : endsWith text "/" = false
  gitless : endsWith text ".git" = false

variable {url : String}

def isNameChar (ch : Char) : Bool := isAsciiAlphanumeric ch || ch = '-' || ch = '_' || ch = '.'

structure GithubName where
  text : String
  nonempty : text ≠ ""
  plain : ∀ ch ∈ text.toList, isNameChar ch = true

inductive Scheme where
  | https | http | ssh
deriving DecidableEq, Repr

inductive Mark where
  | git | slash
deriving DecidableEq, Repr

def schemeText : Option Scheme → String
  | none => ""
  | some .https => "https://"
  | some .http => "http://"
  | some .ssh => "ssh://"

def marksText : List Mark → String
  | [] => ""
  | .git :: rest => ".git" ++ marksText rest
  | .slash :: rest => "/" ++ marksText rest

/-- The parts of an address; `colon` is the mark of the form `git@host:owner/repo`. -/
structure Spelling where
  scheme : Option Scheme
  user : Bool
  www : Bool
  colon : Bool
  marks : List Mark
deriving DecidableEq, Repr

def hostText (user www : Bool) (rest : String) : String :=
  (if user then "git@" else "") ++ ((if www then "www." else "") ++ ("github.com" ++ rest))

def Spelling.text (spelling : Spelling) (owner repo : String) : String :=
  schemeText spelling.scheme ++ hostText spelling.user spelling.www
    ((if spelling.colon then ":" else "/") ++ (owner ++ ("/" ++ (repo ++ marksText spelling.marks))))

def Ordered (marks : List Mark) : Prop :=
  ∃ gits slashes, marks = List.replicate gits .git ++ List.replicate slashes .slash

/-- A colon needs the user and excludes a scheme; no slash is before a `.git`. -/
structure Spelling.Accepted (spelling : Spelling) : Prop where
  separator : spelling.colon = true → spelling.user = true ∧ spelling.scheme = none
  ordered : Ordered spelling.marks

/-- A bare text with `.git`s and then slashes behind it. -/
def Tidy (text : String) : Prop :=
  ∃ core marks, text = core ++ marksText marks ∧ Bare core ∧ Ordered marks

variable {front : String}

theorem Ordered.tail {mark : Mark} {rest : List Mark} (ordered : Ordered (mark :: rest)) :
    Ordered rest := by
  obtain ⟨gits, slashes, same⟩ := ordered
  cases gits with
  | succ gits =>
      rw [List.replicate_succ, List.cons_append] at same
      exact ⟨gits, slashes, (List.cons.inj same).2⟩
  | zero =>
      cases slashes with
      | zero => cases same
      | succ slashes =>
          rw [List.replicate_zero, List.nil_append, List.replicate_succ] at same
          exact ⟨0, slashes, (List.cons.inj same).2⟩

/-- Where a dot or a slash stands in a prefix. -/
theorem repo_front_breaks : ∀ front ∈ repoFronts, ∀ count < front.toList.length,
    ((front.toList.drop count).head? = some '.' → front.toList.drop count = ['.']) ∧
    ((front.toList.drop count).head? = some '/' → front.toList.drop count = ['/', '/'] ∨
      (front.toList.take count).reverse.head? = some '/') := by decide

theorem git_chars (rest : List Mark) : (marksText (.git :: rest)).toList =
    '.' :: 'g' :: 'i' :: 't' :: (marksText rest).toList := String.toList_append

theorem slash_chars (rest : List Mark) :
    (marksText (.slash :: rest)).toList = '/' :: (marksText rest).toList := String.toList_append

/-- A prefix that does not begin the bare text ends in its marks. -/
theorem Tidy.behind {text : String} (member : front ∈ repoFronts) (tidy : Tidy (front ++ text)) :
    Tidy text := by
  obtain ⟨core, marks, whole, bare, ordered⟩ := tidy
  have other := bare.unprefixed front member
  have chars := congrArg String.toList whole
  rw [String.toList_append, String.toList_append] at chars
  have noPrefix : ¬front.toList <+: core.toList := by
    unfold startsWith at other
    rw [← List.isPrefixOf_iff_prefix, other]
    decide
  rcases List.append_eq_append_iff.mp chars with ⟨more, isCore, -⟩ | ⟨back, isFront, isMarks⟩
  · exact absurd ⟨more, isCore.symm⟩ noPrefix
  · have cut : front.toList.drop core.toList.length = back := by rw [isFront, List.drop_left]
    have kept : front.toList.take core.toList.length = core.toList := by rw [isFront, List.take_left]
    have nonempty : back ≠ [] := by
      intro nothing
      rw [nothing, List.append_nil] at isFront
      rw [isFront] at noPrefix
      exact noPrefix List.prefix_rfl
    have proper : core.toList.length < front.toList.length := by
      have positive := List.length_pos_of_ne_nil nonempty
      rw [isFront, List.length_append]
      omega
    have breaks := repo_front_breaks front member _ proper
    rw [cut, kept] at breaks
    cases marks with
    | nil =>
        have nothing : back ++ text.toList = [] := isMarks.symm
        exact absurd (List.append_eq_nil_iff.mp nothing).1 nonempty
    | cons mark rest =>
        have head : back.head? = (marksText (mark :: rest)).toList.head? := by
          rw [isMarks, List.head?_append_of_ne_nil _ nonempty]
        cases mark with
        | git =>
            rw [git_chars] at head isMarks
            have isDot := breaks.1 head
            rw [isDot] at isMarks
            have isText : text = "git" ++ marksText rest := by
              apply String.toList_inj.mp
              rw [String.toList_append]
              exact (List.cons.inj isMarks).2.symm
            exact ⟨"git", rest, isText, ⟨by decide, by decide, by decide, by decide⟩, ordered.tail⟩
        | slash =>
            rw [slash_chars] at head isMarks
            rcases breaks.2 head with two | slash
            · rw [two] at isMarks
              have later := (List.cons.inj isMarks).2
              cases rest with
              | nil => cases later
              | cons mark rest =>
                  cases mark with
                  | git =>
                      rw [git_chars] at later
                      cases (List.cons.inj later).1
                  | slash =>
                      rw [slash_chars] at later
                      have isText : text = "" ++ marksText rest := by
                        apply String.toList_inj.mp
                        rw [String.empty_append]
                        exact (List.cons.inj later).2.symm
                      exact ⟨"", rest, isText, ⟨by decide, by decide, by decide, by decide⟩,
                        ordered.tail.tail⟩
            · have unslashed := bare.unslashed
              unfold endsWith at unslashed
              cases turned : core.toList.reverse with
              | nil =>
                  rw [turned] at slash
                  cases slash
              | cons last others =>
                  rw [turned] at slash unslashed
                  have isSlash : last = '/' := Option.some.inj slash
                  rw [isSlash] at unslashed
                  cases unslashed

theorem Tidy.leading {text rest : String} (member : front ∈ repoFronts)
    (leading : Leading front text rest) (tidy : Tidy text) : Tidy rest := by
  induction leading with
  | done other => exact tidy
  | again more ih => exact ih (tidy.behind member)

theorem Tidy.peels {fronts : List String} {text rest : String} (peels : Peels fronts text rest)
    (known : fronts ⊆ repoFronts) (tidy : Tidy text) : Tidy rest := by
  induction peels with
  | nil text => exact tidy
  | cons first others ih =>
      exact ih (fun front member => known (List.mem_cons_of_mem _ member))
        (tidy.leading (known List.mem_cons_self) first)

theorem name_char_plain {ch : Char} (plain : isNameChar ch = true) :
    isWhitespace ch = false ∧ ch ≠ '/' ∧ ch ≠ ':' := by
  have codes : (48 ≤ ch.toNat ∧ ch.toNat ≤ 57 ∨ 65 ≤ ch.toNat ∧ ch.toNat ≤ 90 ∨
      97 ≤ ch.toNat ∧ ch.toNat ≤ 122) ∨ ch = '-' ∨ ch = '_' ∨ ch = '.' := by
    unfold isNameChar at plain
    simp only [Bool.or_eq_true, decide_eq_true_eq, or_assoc] at plain
    rcases plain with letter | other
    · exact Or.inl (alphanum_iff.mp letter)
    · exact Or.inr other
  rcases codes with letter | hyphen | line | dot
  · refine ⟨?_, ?_, ?_⟩
    · unfold isWhitespace
      simp
      omega
    · intro same
      rw [same] at letter
      exact absurd letter (by decide)
    · intro same
      rw [same] at letter
      exact absurd letter (by decide)
  · rw [hyphen]
    decide
  · rw [line]
    decide
  · rw [dot]
    decide

structure LowerName (text : String) : Prop where
  nonempty : text ≠ ""
  plain : ∀ ch ∈ text.toList, isWhitespace ch = false ∧ ch ≠ '/' ∧ ch ≠ ':'

theorem GithubName.lower (name : GithubName) : LowerName (toAsciiLowercase name.text) where
  nonempty := by
    intro empty
    exact name.nonempty (ascii_lowers_text.nonempty _ empty)
  plain ch member := by
    unfold toAsciiLowercase at member
    rw [String.toList_ofList] at member
    obtain ⟨before, among, same⟩ := List.mem_map.mp member
    obtain ⟨visible, noSlash, noColon⟩ := name_char_plain (name.plain before among)
    rw [← same]
    exact ⟨by rw [is_whitespace_lower, visible],
      fun slash => noSlash ((to_lower_eq_iff (by decide)).mp slash),
      fun colon => noColon ((to_lower_eq_iff (by decide)).mp colon)⟩

/-- No blanks and no colons. -/
def Clear (text : String) : Prop := ∀ ch ∈ text.toList, isWhitespace ch = false ∧ ch ≠ ':'

theorem Clear.append {one other : String} (first : Clear one) (second : Clear other) :
    Clear (one ++ other) := by
  intro ch member
  rw [String.toList_append, List.mem_append] at member
  rcases member with front | back
  · exact first ch front
  · exact second ch back

variable {repo owner : String}

/-- The mark behind the host once the form with a colon is turned. -/
def Spelling.separator (spelling : Spelling) : String :=
  if spelling.colon && !(spelling.user && spelling.scheme.isNone) then ":" else "/"

variable {spelling : Spelling}

end Containr.Api.RepoUrls
