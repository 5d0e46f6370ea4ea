import Mathlib.Algebra.GroupWithZero.Nat
import Mathlib.Data.List.Basic
import Mathlib.Data.List.DropRight

/-!
# Strings as the standard library of the source treats them

All functions go through the list of characters, so they reduce. `trim` removes
the Unicode `White_Space` characters, as `str::trim` does.
-/

namespace Containr.Text

/-- `char::is_whitespace`. -/
def isWhitespace (ch : Char) : Bool :=
  let code := ch.toNat
  (9 ≤ code && code ≤ 13) || code == 0x20 || code == 0x85 || code == 0xA0 || code == 0x1680 ||
    (0x2000 ≤ code && code ≤ 0x200A) || code == 0x2028 || code == 0x2029 || code == 0x202F ||
    code == 0x205F || code == 0x3000

def isAsciiAlphanumeric (ch : Char) : Bool := ch.isAlphanum

def isAsciiHexdigit (ch : Char) : Bool :=
  ch.isDigit || ('a' ≤ ch && ch ≤ 'f') || ('A' ≤ ch && ch ≤ 'F')

def trimChars (chars : List Char) : List Char :=
  ((chars.dropWhile isWhitespace).reverse.dropWhile isWhitespace).reverse

def trim (text : String) : String := String.ofList (trimChars text.toList)

/-- `str::trim().is_empty()`. -/
def blank (text : String) : Bool := (trimChars text.toList).isEmpty

theorem trim_chars_idem (chars : List Char) : trimChars (trimChars chars) = trimChars chars := by
  unfold trimChars
  generalize front : chars.dropWhile isWhitespace = rest
  have kept : rest.dropWhile isWhitespace = rest := by
    rw [← front]
    exact List.dropWhile_idempotent _ _
  generalize back : rest.reverse.dropWhile isWhitespace = last
  have keptLast : last.dropWhile isWhitespace = last := by
    rw [← back]
    exact List.dropWhile_idempotent _ _
  have shorter : last.reverse <+: rest := by
    rw [← List.reverse_suffix, List.reverse_reverse, ← back]
    exact List.dropWhile_suffix _
  have head : last.reverse.dropWhile isWhitespace = last.reverse := by
    cases ends : last.reverse with
    | nil => rfl
    | cons ch others =>
        rw [ends] at shorter
        obtain ⟨more, whole⟩ := shorter
        rw [← whole, List.cons_append] at kept
        rw [List.dropWhile_eq_self_iff] at kept ⊢
        intro nonempty
        exact kept (by simp)
  rw [head, List.reverse_reverse, keptLast]

theorem trim_idem (text : String) : trim (trim text) = trim text := by
  unfold trim
  rw [String.toList_ofList, trim_chars_idem]

/-- `str::to_ascii_lowercase`. -/
def toAsciiLowercase (text : String) : String := String.ofList (text.toList.map Char.toLower)

/-- `str::eq_ignore_ascii_case`. -/
def eqIgnoreAsciiCase (left right : String) : Bool :=
  toAsciiLowercase left = toAsciiLowercase right

theorem to_lower_other {ch : Char} (other : ¬(ch.val ≥ 'A'.val ∧ ch.val ≤ 'Z'.val)) :
    ch.toLower = ch := dif_neg other

theorem to_lower_upper {ch : Char} (upper : ch.val ≥ 'A'.val ∧ ch.val ≤ 'Z'.val) :
    ch.toLower.val = ch.val + 32 := by
  have moved : ch.toLower = _ := dif_pos upper
  rw [moved]
  rfl

theorem to_lower_idem (ch : Char) : ch.toLower.toLower = ch.toLower := by
  by_cases upper : ch.val ≥ 'A'.val ∧ ch.val ≤ 'Z'.val
  · have moved := to_lower_upper upper
    have low : (65 : UInt32) ≤ ch.val := upper.1
    have high : ch.val ≤ (90 : UInt32) := upper.2
    apply to_lower_other
    rintro ⟨-, small⟩
    have small : ch.val + 32 ≤ (90 : UInt32) := by
      rw [← moved]
      exact small
    rw [UInt32.le_iff_toNat_le] at low high small
    rw [UInt32.toNat_add] at small
    simp only [UInt32.reduceToNat] at low high small
    omega
  · rw [to_lower_other upper, to_lower_other upper]

theorem to_ascii_lowercase_idem (text : String) :
    toAsciiLowercase (toAsciiLowercase text) = toAsciiLowercase text := by
  unfold toAsciiLowercase
  rw [String.toList_ofList, List.map_map]
  apply congrArg String.ofList
  apply List.map_congr_left
  intro ch _
  exact to_lower_idem ch

def endsWith (text back : String) : Bool := back.toList.reverse.isPrefixOf text.toList.reverse

def startsWith (text front : String) : Bool := front.toList.isPrefixOf text.toList

/-- `str::strip_prefix`. -/
def stripFront (text front : String) : Option String :=
  if startsWith text front then some (String.ofList (text.toList.drop front.length)) else none

/-- `str::len`. -/
def byteLength (text : String) : Nat := (text.toList.map Char.utf8Size).sum

/-- The characters of the first bytes; `none` where the cut falls inside a character or
behind the end. -/
def firstBytes : Nat → List Char → Option (List Char)
  | 0, _ => some []
  | _ + 1, [] => none
  | count + 1, ch :: rest =>
      if ch.utf8Size ≤ count + 1 then (firstBytes (count + 1 - ch.utf8Size) rest).map (ch :: ·)
      else none

/-- `&text[..count]`, which panics off a character boundary. -/
def sliceTo (count : Nat) (text : String) : Option String :=
  (firstBytes count text.toList).map String.ofList

theorem first_bytes_ascii {front : List Char} (ascii : ∀ ch ∈ front, ch.utf8Size = 1)
    (rest : List Char) : firstBytes front.length (front ++ rest) = some front := by
  induction front with
  | nil => simp [firstBytes]
  | cons ch front ih =>
      have size : ch.utf8Size = 1 := ascii ch List.mem_cons_self
      have found := ih fun other member => ascii other (List.mem_cons_of_mem ch member)
      simp [firstBytes, size, found]

theorem byte_length_ge (text : String) : text.toList.length ≤ byteLength text := by
  unfold byteLength
  induction text.toList with
  | nil => simp
  | cons ch rest ih =>
      have positive := Char.utf8Size_pos ch
      simp only [List.length_cons, List.map_cons, List.sum_cons]
      omega

theorem starts_with_iff {text front : String} :
    startsWith text front = true ↔ ∃ rest, text = front ++ rest := by
  unfold startsWith
  rw [List.isPrefixOf_iff_prefix]
  constructor
  · intro found
    rcases found with ⟨rest, whole⟩
    refine ⟨String.ofList rest, ?_⟩
    apply String.toList_injective
    rw [String.toList_append, String.toList_ofList, whole]
  · intro found
    rcases found with ⟨rest, whole⟩
    rw [whole, String.toList_append]
    exact List.prefix_append _ _

theorem strip_front_append (front rest : String) : stripFront (front ++ rest) front = some rest := by
  have starts : startsWith (front ++ rest) front = true := starts_with_iff.mpr ⟨rest, rfl⟩
  unfold stripFront
  rw [if_pos starts, String.toList_append]
  have dropped : (front.toList ++ rest.toList).drop front.length = rest.toList := by
    rw [← String.length_toList, List.drop_left]
  rw [dropped, String.ofList_toList]

theorem strip_front_none {text front : String} (different : ¬startsWith text front = true) :
    stripFront text front = none := if_neg different

theorem strip_front_some {text front rest : String} (found : stripFront text front = some rest) :
    text = front ++ rest := by
  unfold stripFront at found
  split_ifs at found with starts
  rcases starts_with_iff.mp starts with ⟨other, whole⟩
  have stripped := strip_front_append front other
  unfold stripFront at stripped
  rw [if_pos (starts_with_iff.mpr ⟨other, rfl⟩), ← whole, found] at stripped
  rw [whole, Option.some.inj stripped]

/-- A common front decides nothing. -/
theorem starts_with_append (front text more : String) :
    startsWith (front ++ text) (front ++ more) = startsWith text more := by
  have same : startsWith (front ++ text) (front ++ more) = true ↔ startsWith text more = true := by
    rw [starts_with_iff, starts_with_iff]
    constructor
    · intro found
      rcases found with ⟨rest, whole⟩
      rw [String.append_assoc] at whole
      exact ⟨rest, String.append_right_inj front |>.mp whole⟩
    · intro found
      rcases found with ⟨rest, whole⟩
      exact ⟨rest, by rw [whole, String.append_assoc]⟩
  exact Bool.eq_iff_iff.mpr same

/-- `str::trim_start_matches` with a text: every repetition is removed. -/
def trimStartMatches (text front : String) : String :=
  let rec drop : Nat → List Char → List Char
    | 0, chars => chars
    | fuel + 1, chars =>
        if !front.isEmpty && front.toList.isPrefixOf chars then
          drop fuel (chars.drop front.length)
        else chars
  String.ofList (drop text.length text.toList)

/-- `str::trim_end_matches` with a character. -/
def trimEndMatches (text : String) (mark : Char) : String :=
  String.ofList ((text.toList.reverse.dropWhile (· = mark)).reverse)

/-- `str::trim_end_matches` with a text. -/
def trimEndText (text back : String) : String :=
  let turned := trimStartMatches (String.ofList text.toList.reverse)
    (String.ofList back.toList.reverse)
  String.ofList turned.toList.reverse

/-- `str::split` at a character. -/
def splitAt (mark : Char) (text : String) : List String :=
  let rec pieces : List Char → List (List Char)
    | [] => [[]]
    | ch :: rest =>
        match pieces rest with
        | [] => [[ch]]
        | first :: others => if ch = mark then [] :: first :: others else (ch :: first) :: others
  (pieces text.toList).map String.ofList

/-- `str::split_once` on one character. -/
def splitOnce (mark : Char) (text : String) : Option (String × String) :=
  match text.toList.span (· ≠ mark) with
  | (_, []) => none
  | (first, _ :: rest) => some (String.ofList first, String.ofList rest)

/-- `value.chars().take(count).collect()`. -/
def takeChars (count : Nat) (text : String) : String := String.ofList (text.toList.take count)

/-- `String::truncate`, which panics off a character boundary. -/
def truncate (count : Nat) (text : String) : Option String :=
  if byteLength text ≤ count then some text else sliceTo count text

theorem byte_length_ascii {chars : List Char} (ascii : ∀ ch ∈ chars, ch.utf8Size = 1) :
    (chars.map Char.utf8Size).sum = chars.length := by
  induction chars with
  | nil => simp
  | cons ch rest ih =>
      have size := ascii ch List.mem_cons_self
      have others := ih fun other member => ascii other (List.mem_cons_of_mem ch member)
      simp only [List.map_cons, List.sum_cons, List.length_cons]
      omega

theorem truncate_ascii {text : String} (ascii : ∀ ch ∈ text.toList, ch.utf8Size = 1)
    (count : Nat) : truncate count text = some (takeChars count text) := by
  unfold truncate takeChars byteLength
  rw [byte_length_ascii ascii]
  split_ifs with short
  · rw [List.take_of_length_le short, String.ofList_toList]
  · have long : (text.toList.take count).length = count := by
      rw [List.length_take]
      omega
    have asciiFront : ∀ ch ∈ text.toList.take count, ch.utf8Size = 1 := fun ch member =>
      ascii ch (List.mem_of_mem_take member)
    have cut := first_bytes_ascii asciiFront (text.toList.drop count)
    rw [long, List.take_append_drop] at cut
    unfold sliceTo
    rw [cut]
    rfl

def join (separator : String) : List String → String
  | [] => ""
  | [only] => only
  | first :: rest => first ++ separator ++ join separator rest

def twoDigits (value : Nat) : String :=
  String.ofList [Nat.digitChar (value / 10 % 10), Nat.digitChar (value % 10)]

def civilFromDays (days : Nat) : Nat × Nat × Nat :=
  let shifted := days + 719468
  let era := shifted / 146097
  let dayOfEra := shifted % 146097
  let yearOfEra := (dayOfEra - dayOfEra / 1460 + dayOfEra / 36524 - dayOfEra / 146096) / 365
  let dayOfYear := dayOfEra - (365 * yearOfEra + yearOfEra / 4 - yearOfEra / 100)
  let part := (5 * dayOfYear + 2) / 153
  let day := dayOfYear - (153 * part + 2) / 5 + 1
  let month := if part < 10 then part + 3 else part - 9
  (yearOfEra + era * 400 + (if month ≤ 2 then 1 else 0), month, day)

/-- `%Y-%m-%d %H:%M:%S`. -/
def formatTimestamp (seconds : Nat) : String :=
  let (year, month, day) := civilFromDays (seconds / 86400)
  let clock := seconds % 86400
  twoDigits (year / 100) ++ twoDigits year ++ "-" ++ twoDigits month ++ "-" ++ twoDigits day ++
    " " ++ twoDigits (clock / 3600) ++ ":" ++ twoDigits (clock / 60 % 60) ++ ":" ++
    twoDigits (clock % 60)

/-- `%Y%m%d%H%M%S`. -/
def compactTimestamp (seconds : Nat) : String :=
  let (year, month, day) := civilFromDays (seconds / 86400)
  let clock := seconds % 86400
  twoDigits (year / 100) ++ twoDigits year ++ twoDigits month ++ twoDigits day ++
    twoDigits (clock / 3600) ++ twoDigits (clock / 60 % 60) ++ twoDigits (clock % 60)

/-- `to_rfc3339` of a time in UTC. -/
def toRfc3339 (seconds : Nat) : String :=
  let (year, month, day) := civilFromDays (seconds / 86400)
  let clock := seconds % 86400
  twoDigits (year / 100) ++ twoDigits year ++ "-" ++ twoDigits month ++ "-" ++ twoDigits day ++
    "T" ++ twoDigits (clock / 3600) ++ ":" ++ twoDigits (clock / 60 % 60) ++ ":" ++
    twoDigits (clock % 60) ++ "+00:00"

example : formatTimestamp 1709209845 = "2024-02-29 12:30:45" := by decide +kernel

section Every

variable {holds : Char → Prop} [DecidablePred holds] {text : String}

theorem every_char (checked : (text.toList.all fun ch => decide (holds ch)) = true) :
    ∀ ch ∈ text.toList, holds ch :=
  fun ch member => of_decide_eq_true (List.all_eq_true.mp checked ch member)

theorem not_every_char (checked : (text.toList.all fun ch => decide (holds ch)) = false) :
    ¬∀ ch ∈ text.toList, holds ch := by
  intro every
  have all : (text.toList.all fun ch => decide (holds ch)) = true :=
    List.all_eq_true.mpr fun ch member => decide_eq_true (every ch member)
  rw [checked] at all
  cases all

end Every

end Containr.Text
