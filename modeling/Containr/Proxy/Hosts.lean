import Containr.Proxy.Filter
import Containr.Trimming

/-!
# Spellings of a host

A host is a registered name or an IP literal in brackets. A request may spell it in any
letter case, with a port and with a trailing dot. Case and port are gone when the host of
the request is read; the dot of a registered name is not.
-/

namespace Containr.Proxy

open Containr.Text (LowersAscii)

variable {lib : Libraries}

/-- Unreserved characters, sub-delimiters and the percent sign. -/
def hostChar (ch : Char) : Bool :=
  ch.isAlphanum || ['-', '.', '_', '~', '!', '$', '&', '\'', '(', ')', '*', '+', ',', ';', '=',
    '%'].contains ch

def RegisteredName (name : String) : Prop := name.toList.all hostChar = true

def IpLiteral (name : String) : Prop :=
  ∃ address : List Char, name.toList = '[' :: (address ++ [']']) ∧
    address.all (fun ch => hostChar ch || ch = ':') = true

structure Spelling where
  name : String
  dotted : Bool
  port : Option String
deriving DecidableEq, Repr

/-- What the `Host` header or the request target says. -/
def Spelling.authority (spelling : Spelling) : String :=
  spelling.name ++ (if spelling.dotted then "." else "") ++
    (match spelling.port with
      | none => ""
      | some port => ":" ++ port)

section Chars

variable {ch : Char}

theorem host_char_cases (valid : hostChar ch = true) :
    ch.isAlphanum = true ∨ ch.toNat ∈ [45, 46, 95, 126, 33, 36, 38, 39, 40, 41, 42, 43, 44, 59, 61,
      37] := by
  unfold hostChar at valid
  rcases Bool.or_eq_true_iff.mp valid with plain | other
  · exact Or.inl plain
  · right
    rw [List.contains_iff_mem] at other
    exact List.mem_map_of_mem other

/-- ASCII, printable, and neither a slash nor a colon nor a bracket. -/
theorem host_char_range (valid : hostChar ch = true) :
    33 ≤ ch.toNat ∧ ch.toNat < 127 ∧ ch.toNat ≠ 47 ∧ ch.toNat ≠ 58 ∧ ch.toNat ≠ 91 ∧
      ch.toNat ≠ 93 := by
  rcases host_char_cases valid with plain | other
  · have range := Text.alphanum_iff.mp plain
    omega
  · simp only [List.mem_cons, List.not_mem_nil, or_false] at other
    omega

end Chars

def Spelling.dot (spelling : Spelling) : String := if spelling.dotted then "." else ""

def Spelling.tail (spelling : Spelling) : List Char :=
  match spelling.port with
  | none => []
  | some port => ':' :: port.toList

theorem authority_parts (spelling : Spelling) :
    spelling.authority.toList = (spelling.name ++ spelling.dot).toList ++ spelling.tail := by
  unfold Spelling.authority Spelling.dot Spelling.tail
  cases spelling.port with
  | none => simp
  | some port => simp

theorem tail_cut (spelling : Spelling) : spelling.tail.takeWhile (· ≠ ':') = [] := by
  unfold Spelling.tail
  cases spelling.port with
  | none => rfl
  | some port => exact List.takeWhile_cons_of_neg (by simp)

theorem dot_chars (spelling : Spelling) : ∀ ch ∈ spelling.dot.toList, ch = '.' := by
  unfold Spelling.dot
  cases spelling.dotted with
  | false => simp
  | true => simp

theorem dotted_of_length {spelling other : Spelling}
    (lengths : spelling.dot.toList.length = other.dot.toList.length) :
    spelling.dotted = other.dotted := by
  unfold Spelling.dot at lengths
  cases dotted : spelling.dotted with
  | false =>
      cases otherDotted : other.dotted with
      | false => rfl
      | true => simp [dotted, otherDotted] at lengths
  | true =>
      cases otherDotted : other.dotted with
      | false => simp [dotted, otherDotted] at lengths
      | true => rfl

/-- Neither slashes nor anything beyond ASCII: only the letter case is normalised. -/
theorem normalize_hostname_plain {hostname : String} (lowers : LowersAscii lib.toLowercase)
    (noSlash : '/' ∉ hostname.toList) (ascii : ∀ ch ∈ hostname.toList, ch.toNat < 128) :
    normalizeHostname lib hostname = Text.toAsciiLowercase hostname := by
  have secure : Text.startsWith hostname "https://" = false :=
    @Text.starts_with_false hostname _ '/' (by decide) noSlash
  have plain : Text.startsWith hostname "http://" = false :=
    @Text.starts_with_false hostname _ '/' (by decide) noSlash
  unfold normalizeHostname
  rw [Text.trim_start_matches_other secure, Text.trim_start_matches_other plain,
    Text.trim_end_matches_plain noSlash, lowers hostname ascii]

section Registered

variable {spelling : Spelling}

theorem name_dot_chars (registered : RegisteredName spelling.name) :
    ∀ ch ∈ (spelling.name ++ spelling.dot).toList, hostChar ch = true := by
  intro ch member
  rw [String.toList_append, List.mem_append] at member
  rcases member with inName | inDot
  · exact List.all_eq_true.mp registered ch inName
  · rw [dot_chars spelling ch inDot]
    decide

theorem not_host_char {text : List Char} {mark : Char} (valid : ∀ ch ∈ text, hostChar ch = true)
    (other : hostChar mark = false) : mark ∉ text := by
  intro member
  have isHostChar := valid mark member
  rw [other] at isHostChar
  cases isHostChar

theorem not_bracketed (registered : RegisteredName spelling.name) :
    Text.startsWith spelling.authority "[" = false := by
  have chars := name_dot_chars registered
  unfold Text.startsWith
  rw [authority_parts]
  cases front : (spelling.name ++ spelling.dot).toList with
  | nil =>
      unfold Spelling.tail
      cases spelling.port with
      | none => rfl
      | some port => rfl
  | cons first rest =>
      have isHostChar := chars first (by rw [front]; exact List.mem_cons_self)
      have other : ¬ '[' = first := by
        intro same
        rw [← same] at isHostChar
        revert isHostChar
        decide
      simp [List.isPrefixOf, other]

theorem authority_hostname_registered (lowers : LowersAscii lib.toLowercase)
    (registered : RegisteredName spelling.name) :
    authorityHostname lib spelling.authority =
      Text.toAsciiLowercase (spelling.name ++ spelling.dot) := by
  have chars := name_dot_chars registered
  have noColon : ':' ∉ (spelling.name ++ spelling.dot).toList := not_host_char chars (by decide)
  have cut : spelling.authority.toList.takeWhile (· ≠ ':') =
      (spelling.name ++ spelling.dot).toList := by
    rw [authority_parts, List.takeWhile_append_of_pos, tail_cut, List.append_nil]
    intro ch member
    simp only [ne_eq, decide_eq_true_eq]
    intro same
    rw [same] at member
    exact noColon member
  have hostname : authorityHostname lib spelling.authority =
      normalizeHostname lib (spelling.name ++ spelling.dot) := by
    unfold authorityHostname
    rw [not_bracketed registered, cut, String.ofList_toList]
    rfl
  rw [hostname]
  apply normalize_hostname_plain lowers
  · exact not_host_char chars (by decide)
  · intro ch member
    have range := host_char_range (chars ch member)
    omega

end Registered

section Literal

variable {spelling : Spelling}

/-- What stands behind the closing bracket is cut off with the port. -/
theorem authority_hostname_literal (lowers : LowersAscii lib.toLowercase)
    (literal : IpLiteral spelling.name) :
    authorityHostname lib spelling.authority = Text.toAsciiLowercase spelling.name := by
  obtain ⟨address, whole, valid⟩ := literal
  have chars : ∀ ch ∈ address, hostChar ch = true ∨ ch = ':' := by
    intro ch member
    simpa using List.all_eq_true.mp valid ch member
  have text : spelling.authority.toList =
      '[' :: (address ++ ']' :: (spelling.dot.toList ++ spelling.tail)) := by
    rw [authority_parts, String.toList_append, whole]
    simp
  have starts : Text.startsWith spelling.authority "[" = true := by
    unfold Text.startsWith
    rw [text]
    rfl
  have closes : spelling.authority.toList.contains ']' = true := by
    rw [text]
    simp
  have inside : ∀ ch ∈ '[' :: address, decide (ch ≠ ']') = true := by
    intro ch member
    simp only [ne_eq, decide_eq_true_eq]
    intro same
    rw [same] at member
    rcases List.mem_cons.mp member with isOpen | among
    · exact absurd isOpen (by decide)
    · rcases chars _ among with isHostChar | isColon
      · revert isHostChar
        decide
      · exact absurd isColon (by decide)
  have cut : spelling.authority.toList.takeWhile (· ≠ ']') ++ [']'] = spelling.name.toList := by
    rw [text, ← List.cons_append, List.takeWhile_append_of_pos inside,
      List.takeWhile_cons_of_neg (by simp), List.append_nil, whole]
    rfl
  have hostname : authorityHostname lib spelling.authority = normalizeHostname lib spelling.name := by
    unfold authorityHostname
    rw [starts, closes, cut, String.ofList_toList]
    rfl
  have known : ∀ ch ∈ spelling.name.toList, ch ≠ '/' ∧ ch.toNat < 128 := by
    intro ch member
    rw [whole, List.mem_cons, List.mem_append, List.mem_singleton] at member
    rcases member with isOpen | among | isClose
    · rw [isOpen]
      decide
    · rcases chars ch among with isHostChar | isColon
      · have range := host_char_range isHostChar
        refine ⟨?_, by omega⟩
        intro same
        rw [same] at range
        revert range
        decide
      · rw [isColon]
        decide
    · rw [isClose]
      decide
  rw [hostname]
  apply normalize_hostname_plain lowers
  · intro member
    exact (known _ member).1 rfl
  · intro ch member
    exact (known ch member).2

end Literal

end Containr.Proxy
