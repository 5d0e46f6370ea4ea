import Containr.Models
import Containr.Path

/-!
# The text of identifiers

A uuid is written with 36 characters, hexadecimal digits and hyphens, eight digits
in front of the first hyphen.
-/

namespace Containr

/-- The digits `Display` writes. -/
def isHexChar (ch : Char) : Bool := ch.isDigit || ('a' ≤ ch && ch ≤ 'f')

theorem hex_digits_length (width value : Nat) : (Uuid.hexDigits width value).length = width := by
  induction width generalizing value with
  | zero => rfl
  | succ width ih => simp [Uuid.hexDigits, ih]

variable {ch : Char}

theorem hex_digits_chars {width value : Nat} (member : ch ∈ Uuid.hexDigits width value) :
    isHexChar ch = true := by
  induction width generalizing value with
  | zero => cases member
  | succ width ih =>
      have digits : ∀ digit < 16, isHexChar (Nat.digitChar digit) = true := by decide
      rw [Uuid.hexDigits, List.mem_append, List.mem_singleton] at member
      rcases member with front | last
      · exact ih front
      · rw [last]
        exact digits _ (Nat.mod_lt value (by omega))

theorem hex_char_ne_hyphen (isHex : isHexChar ch = true) : ch ≠ '-' := by
  intro same
  rw [same] at isHex
  revert isHex
  decide

theorem hex_char_ascii (isHex : isHexChar ch = true) : ch.utf8Size = 1 := by
  have small : ch.val ≤ 0x7f := by
    simp only [isHexChar, Char.isDigit, Bool.or_eq_true, Bool.and_eq_true, decide_eq_true_eq]
      at isHex
    rcases isHex with digit | letter
    · exact UInt32.le_trans digit.2 (by decide)
    · exact UInt32.le_trans (Char.le_def.mp letter.2) (by decide)
  simp [Char.utf8Size, small]

/-- The characters before the first hyphen and those from it on. -/
def Uuid.tailChars (id : Uuid) : List Char :=
  let digits := hexDigits 32 id.value
  '-' :: (digits.drop 8).take 4 ++ '-' :: (digits.drop 12).take 4 ++
    '-' :: (digits.drop 16).take 4 ++ '-' :: digits.drop 20

def Uuid.headChars (id : Uuid) : List Char := (hexDigits 32 id.value).take 8

theorem uuid_chars (id : Uuid) : id.toString.toList = id.headChars ++ id.tailChars := by
  simp [Uuid.toString, Uuid.headChars, Uuid.tailChars]

theorem head_chars_length (id : Uuid) : id.headChars.length = 8 := by
  simp [Uuid.headChars, hex_digits_length]

variable {id : Uuid}

theorem head_chars_hex (member : ch ∈ id.headChars) : isHexChar ch = true :=
  hex_digits_chars (List.mem_of_mem_take member)

theorem uuid_chars_length (id : Uuid) : id.toString.toList.length = 36 := by
  rw [uuid_chars, List.length_append, head_chars_length]
  simp [Uuid.tailChars, hex_digits_length]

/-- Between the hyphens stand digits. -/
theorem tail_chars_mem (member : ch ∈ id.tailChars) :
    ch = '-' ∨ ch ∈ Uuid.hexDigits 32 id.value := by
  unfold Uuid.tailChars at member
  generalize Uuid.hexDigits 32 id.value = digits at member ⊢
  have pieces : ∀ piece, List.Sublist piece digits → ch ∈ piece → ch = '-' ∨ ch ∈ digits :=
    fun piece sub inPiece => Or.inr (sub.subset inPiece)
  have part : ∀ start count, List.Sublist ((digits.drop start).take count) digits :=
    fun start count => (List.take_sublist count _).trans (List.drop_sublist start digits)
  simp only [List.mem_append, List.mem_cons] at member
  rcases member with ((((hyphen | first) | (hyphen | second)) | (hyphen | third)) |
    (hyphen | fourth))
  · exact Or.inl hyphen
  · exact pieces _ (part 8 4) first
  · exact Or.inl hyphen
  · exact pieces _ (part 12 4) second
  · exact Or.inl hyphen
  · exact pieces _ (part 16 4) third
  · exact Or.inl hyphen
  · exact pieces _ (List.drop_sublist 20 digits) fourth

theorem uuid_chars_hex (member : ch ∈ id.toString.toList) : isHexChar ch = true ∨ ch = '-' := by
  rw [uuid_chars, List.mem_append] at member
  rcases member with front | back
  · exact Or.inl (head_chars_hex front)
  · rcases tail_chars_mem back with hyphen | digit
    · exact Or.inr hyphen
    · exact Or.inl (hex_digits_chars digit)

theorem uuid_chars_ascii {id : Uuid} {ch : Char} (member : ch ∈ id.toString.toList) :
    ch.utf8Size = 1 := by
  rcases uuid_chars_hex member with isHex | hyphen
  · exact hex_char_ascii isHex
  · rw [hyphen]
    decide

/-- A short text in front of a uuid's text has only hexadecimal digits. -/
theorem front_of_uuid {front rest : List Char} (short : front.length ≤ 8)
    (starts : front <+: id.toString.toList ++ rest) : ∀ ch ∈ front, isHexChar ch = true := by
  intro ch member
  rw [uuid_chars, List.append_assoc] at starts
  have inside : front <+: id.headChars := by
    apply List.prefix_of_prefix_length_le starts (List.prefix_append _ _)
    rw [head_chars_length]
    exact short
  exact head_chars_hex (inside.subset member)

/-- An identifier can name a directory. -/
theorem uuid_plain (id : Uuid) : Path.PlainName id.toString := by
  have long := uuid_chars_length id
  have shape : ∀ ch ∈ id.toString.toList, ch ≠ '/' ∧ ch ≠ '.' := by
    intro ch member
    cases uuid_chars_hex member with
    | inl isHex =>
        constructor
        · intro same
          rw [same] at isHex
          exact absurd isHex (by decide)
        · intro same
          rw [same] at isHex
          exact absurd isHex (by decide)
    | inr hyphen =>
        rw [hyphen]
        decide
  constructor
  · intro empty
    simp [empty] at long
  · intro member
    exact (shape _ member).1 rfl
  · intro dot
    exact (shape '.' (by simp [dot])).2 rfl
  · intro dots
    exact (shape '.' (by simp [dots])).2 rfl

/-- The first eight digits are what stands before the first hyphen. -/
theorem uuid_take_while (id : Uuid) : id.toString.toList.takeWhile (· ≠ '-') = id.headChars := by
  have noHyphen : ∀ ch ∈ id.headChars, decide (ch ≠ '-') = true := by
    intro ch member
    simpa using hex_char_ne_hyphen (head_chars_hex member)
  rw [uuid_chars, List.takeWhile_append_of_pos noHyphen]
  simp [Uuid.tailChars]

def hexValue (ch : Char) : Nat := if ch.isDigit then ch.toNat - 48 else ch.toNat - 87

def decodeHex (chars : List Char) : Nat := chars.foldl (fun value ch => value * 16 + hexValue ch) 0

theorem decode_hex_digits (width value : Nat) :
    decodeHex (Uuid.hexDigits width value) = value % 16 ^ width := by
  induction width generalizing value with
  | zero => simp [decodeHex, Uuid.hexDigits, Nat.mod_one]
  | succ width ih =>
      have digits : ∀ digit < 16, hexValue (Nat.digitChar digit) = digit := by decide
      have last := digits (value % 16) (Nat.mod_lt value (by omega))
      have front := ih (value / 16)
      unfold decodeHex at front ⊢
      rw [Uuid.hexDigits, List.foldl_append, front, List.foldl_cons, List.foldl_nil, last,
        Nat.pow_succ', Nat.mod_mul]
      omega

theorem uuid_digits (id : Uuid) :
    id.toString.toList.filter (· ≠ '-') = Uuid.hexDigits 32 id.value := by
  have digits : ∀ ch ∈ Uuid.hexDigits 32 id.value, ch ≠ '-' :=
    fun ch member => hex_char_ne_hyphen (hex_digits_chars member)
  rw [uuid_chars, Uuid.headChars, Uuid.tailChars]
  generalize Uuid.hexDigits 32 id.value = chars at digits ⊢
  have kept : ∀ piece : List Char, (∀ ch ∈ piece, ch ∈ chars) →
      piece.filter (fun ch => decide (ch ≠ '-')) = piece := by
    intro piece inside
    apply List.filter_eq_self.mpr
    intro ch member
    simpa using digits ch (inside ch member)
  have part : ∀ start count, ∀ ch ∈ (chars.drop start).take count, ch ∈ chars :=
    fun start count ch member => List.mem_of_mem_drop (List.mem_of_mem_take member)
  have join : ∀ start count, (chars.drop start).take count ++ chars.drop (start + count) =
      chars.drop start := by
    intro start count
    rw [← List.drop_drop, List.take_append_drop]
  have whole := join 0 8
  rw [List.drop_zero] at whole
  have dropped : ∀ rest : List Char, ('-' :: rest).filter (fun ch => decide (ch ≠ '-')) =
      rest.filter fun ch => decide (ch ≠ '-') := by simp
  simp only [List.filter_append, dropped]
  rw [kept (chars.take 8) (fun ch member => List.mem_of_mem_take member), kept _ (part 8 4),
    kept _ (part 12 4), kept _ (part 16 4),
    kept (chars.drop 20) (fun ch member => List.mem_of_mem_drop member), List.append_assoc,
    List.append_assoc, join 16 4, join 12 4, join 8 4]
  exact whole

/-- The id with these digits. -/
def Uuid.read (text : String) : Uuid := ⟨decodeHex (text.toList.filter (· ≠ '-'))⟩

theorem uuid_read (bits : id.value < 2 ^ 128) : Uuid.read id.toString = id := by
  have small : id.value < 16 ^ 32 := by omega
  unfold Uuid.read
  rw [uuid_digits, decode_hex_digits, Nat.mod_eq_of_lt small]

theorem uuid_lowercase (id : Uuid) : Text.toAsciiLowercase id.toString = id.toString := by
  have lower : ∀ ch ∈ id.toString.toList, ch.toLower = ch := by
    intro ch member
    rcases uuid_chars_hex member with isHex | hyphen
    · simp only [isHexChar, Char.isDigit, Bool.or_eq_true, Bool.and_eq_true, decide_eq_true_eq]
        at isHex
      have notUpper : ¬(ch.val ≥ 'A'.val ∧ ch.val ≤ 'Z'.val) := by
        intro upper
        rcases isHex with digit | letter
        · exact absurd (UInt32.le_trans upper.1 digit.2) (by decide)
        · exact absurd (UInt32.le_trans (Char.le_def.mp letter.1) upper.2) (by decide)
      exact Text.to_lower_other notUpper
    · rw [hyphen]
      decide
  unfold Text.toAsciiLowercase
  rw [List.map_congr_left lower, List.map_id', String.ofList_toList]

end Containr
