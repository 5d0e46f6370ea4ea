import Containr.Fields
import Mathlib.Data.List.TakeDrop
import Mathlib.Data.List.TakeWhile

/-!
# Trimming and lower case

What trimming leaves alone, and what it shortens; and the facts about lower-casing that
normalisers of names rely on. The latter hold of Unicode's mapping, and of the ASCII one.
-/

namespace Containr.Text

section Trim

variable {chars : List Char} {text : String}

theorem drop_while_plain {holds : Char → Bool} (plain : ∀ ch ∈ chars, holds ch = false) :
    chars.dropWhile holds = chars := by
  cases chars with
  | nil => rfl
  | cons ch rest =>
      apply List.dropWhile_cons_of_neg
      simp [plain ch List.mem_cons_self]

theorem trim_chars_plain (plain : ∀ ch ∈ chars, isWhitespace ch = false) :
    trimChars chars = chars := by
  have turned : ∀ ch ∈ chars.reverse, isWhitespace ch = false := by simpa using plain
  unfold trimChars
  rw [drop_while_plain plain, drop_while_plain turned, List.reverse_reverse]

theorem trim_plain (plain : ∀ ch ∈ text.toList, isWhitespace ch = false) : trim text = text := by
  unfold trim
  rw [trim_chars_plain plain, String.ofList_toList]

/-- Trimming that takes no character away changes nothing. -/
theorem trim_eq_of_length (long : text.toList.length ≤ (trim text).toList.length) :
    trim text = text := by
  obtain ⟨leading, trailing, -, -, whole⟩ := trim_chars_split text.toList
  have core : (trim text).toList = trimChars text.toList := String.toList_ofList
  have lengths := congrArg List.length whole
  rw [core] at long
  simp only [List.length_append] at lengths
  have noLeading : leading = [] := List.length_eq_zero_iff.mp (by omega)
  have noTrailing : trailing = [] := List.length_eq_zero_iff.mp (by omega)
  rw [noLeading, noTrailing, List.nil_append, List.append_nil] at whole
  unfold trim
  rw [← whole, String.ofList_toList]

theorem trim_chars_eq_iff : trimChars chars = chars ↔
    chars.dropWhile isWhitespace = chars ∧ chars.rdropWhile isWhitespace = chars := by
  have unfolded : trimChars chars = (chars.dropWhile isWhitespace).rdropWhile isWhitespace := rfl
  constructor
  · intro trimmed
    have front := (List.dropWhile_suffix (l := chars) isWhitespace).length_le
    have back := (List.rdropWhile_prefix isWhitespace (chars.dropWhile isWhitespace)).length_le
    rw [← unfolded, trimmed] at back
    have kept : chars.dropWhile isWhitespace = chars :=
      (List.dropWhile_suffix (l := chars) isWhitespace).eq_of_length (by omega)
    rw [unfolded, kept] at trimmed
    exact ⟨kept, trimmed⟩
  · intro kept
    rw [unfolded, kept.1, kept.2]

/-- Trimmed texts in a row are trimmed. -/
theorem trim_chars_append {more : List Char} (first : trimChars chars = chars)
    (second : trimChars more = more) : trimChars (chars ++ more) = chars ++ more := by
  cases chars with
  | nil => exact second
  | cons ch rest =>
      by_cases nothing : more = []
      · rw [nothing, List.append_nil]
        exact first
      · have front := (trim_chars_eq_iff.mp first).1
        have back := (trim_chars_eq_iff.mp second).2
        apply trim_chars_eq_iff.mpr
        rw [List.dropWhile_eq_self_iff] at front ⊢
        rw [List.rdropWhile_eq_self_iff] at back ⊢
        constructor
        · intro nonempty
          exact front (by simp)
        · intro nonempty
          rw [List.getLast_append_of_ne_nil _ nothing]
          exact back nothing

end Trim

section End

variable {text : String} {mark : Char}

theorem trim_end_matches_idem (text : String) (mark : Char) :
    trimEndMatches (trimEndMatches text mark) mark = trimEndMatches text mark := by
  unfold trimEndMatches
  rw [String.toList_ofList, List.reverse_reverse]
  have again := List.dropWhile_idempotent (fun ch => decide (ch = mark)) text.toList.reverse
  rw [again]

theorem trim_end_matches_length (text : String) (mark : Char) :
    (trimEndMatches text mark).toList.length ≤ text.toList.length := by
  unfold trimEndMatches
  rw [String.toList_ofList, List.length_reverse]
  have shorter := (List.dropWhile_suffix (l := text.toList.reverse)
    fun ch => decide (ch = mark)).length_le
  rwa [List.length_reverse] at shorter

theorem trim_end_matches_subset (text : String) (mark : Char) :
    (trimEndMatches text mark).toList ⊆ text.toList := by
  unfold trimEndMatches
  rw [String.toList_ofList]
  intro ch member
  have among := (List.dropWhile_suffix (l := text.toList.reverse)
    fun ch => decide (ch = mark)).subset (List.mem_reverse.mp member)
  exact List.mem_reverse.mp among

theorem trim_end_matches_mark (text : String) (mark : Char) :
    trimEndMatches (text ++ String.ofList [mark]) mark = trimEndMatches text mark := by
  unfold trimEndMatches
  rw [String.toList_append, String.toList_ofList, List.reverse_append, List.reverse_singleton,
    List.singleton_append, List.dropWhile_cons_of_pos (by simp)]

theorem trim_end_matches_plain (plain : mark ∉ text.toList) : trimEndMatches text mark = text := by
  have turned : ∀ ch ∈ text.toList.reverse, decide (ch = mark) = false := by
    intro ch member
    simp only [decide_eq_false_iff_not]
    intro same
    rw [same] at member
    exact plain (List.mem_reverse.mp member)
  unfold trimEndMatches
  rw [drop_while_plain turned, List.reverse_reverse, String.ofList_toList]

end End

theorem trim_start_matches_other {text front : String} (other : startsWith text front = false) :
    trimStartMatches text front = text := by
  have kept : trimStartMatches.drop front text.length text.toList = text.toList := by
    cases text.length with
    | zero => rfl
    | succ fuel =>
        unfold startsWith at other
        unfold trimStartMatches.drop
        simp [other]
  unfold trimStartMatches
  rw [kept, String.ofList_toList]

theorem trim_start_matches_mark (text : String) (mark : Char) :
    trimStartMatches text (String.singleton mark) =
      String.ofList (text.toList.dropWhile fun ch => decide (ch = mark)) := by
  have dropped : ∀ (fuel : Nat) (chars : List Char), chars.length ≤ fuel →
      trimStartMatches.drop (String.singleton mark) fuel chars =
        chars.dropWhile fun ch => decide (ch = mark) := by
    intro fuel
    induction fuel with
    | zero =>
        intro chars short
        have nothing : chars = [] := List.length_eq_zero_iff.mp (by omega)
        rw [nothing]
        rfl
    | succ fuel ih =>
        intro chars short
        unfold trimStartMatches.drop
        cases chars with
        | nil => simp
        | cons ch rest =>
            rw [List.length_cons] at short
            have later := ih rest (by omega)
            by_cases isMark : ch = mark
            · simp [isMark, later]
            · have other : mark ≠ ch := fun same => isMark same.symm
              simp [isMark, other]
  unfold trimStartMatches
  rw [dropped text.length text.toList (le_of_eq String.length_toList)]

theorem starts_with_false {text front : String} {ch : Char} (inFront : ch ∈ front.toList)
    (absent : ch ∉ text.toList) : startsWith text front = false := by
  cases starts : startsWith text front with
  | false => rfl
  | true =>
      obtain ⟨rest, whole⟩ := starts_with_iff.mp starts
      rw [whole, String.toList_append] at absent
      exact absurd (List.mem_append_left _ inFront) absent

theorem split_at_plain {text : String} {mark : Char} (plain : mark ∉ text.toList) :
    splitAt mark text = [text] := by
  unfold splitAt
  rw [pieces_plain plain, List.map_singleton, String.ofList_toList]

theorem split_once_iff (mark : Char) (text first rest : String) :
    splitOnce mark text = some (first, rest) ↔
      text.toList = first.toList ++ mark :: rest.toList ∧ mark ∉ first.toList := by
  unfold splitOnce
  have whole := List.takeWhile_append_dropWhile (p := (· ≠ mark)) (l := text.toList)
  rw [List.span_eq_takeWhile_dropWhile]
  constructor
  · intro found
    cases shape : text.toList.dropWhile (· ≠ mark) with
    | nil =>
        rw [shape] at found
        cases found
    | cons head tail =>
        rw [shape] at found
        have parts := Prod.mk.inj (Option.some.inj found)
        have isMark : head = mark := by
          have stopped := List.head?_dropWhile_not (fun ch => decide (ch ≠ mark)) text.toList
          rw [shape] at stopped
          simpa using stopped
        rw [← parts.1, ← parts.2, String.toList_ofList, String.toList_ofList]
        constructor
        · rw [shape, isMark] at whole
          exact whole.symm
        · intro inside
          have differs := List.mem_takeWhile_imp inside
          simp at differs
  · intro facts
    obtain ⟨shape, plain⟩ := facts
    have differs : ∀ ch ∈ first.toList, decide (ch ≠ mark) = true := by
      intro ch member
      simp only [ne_eq, decide_eq_true_eq]
      intro same
      exact plain (same ▸ member)
    rw [shape, List.takeWhile_append_of_pos differs, List.dropWhile_append_of_pos differs]
    simp

theorem split_once_none_iff (mark : Char) (text : String) :
    splitOnce mark text = none ↔ mark ∉ text.toList := by
  constructor
  · intro none inside
    obtain ⟨first, rest, whole, plain⟩ := List.eq_append_cons_of_mem inside
    have found : splitOnce mark text = some (String.ofList first, String.ofList rest) := by
      apply (split_once_iff _ _ _ _).mpr
      rw [String.toList_ofList, String.toList_ofList]
      exact ⟨whole, plain⟩
    rw [none] at found
    cases found
  · intro plain
    cases cut : splitOnce mark text with
    | none => rfl
    | some parts =>
        have facts := (split_once_iff mark text parts.1 parts.2).mp cut
        rw [facts.1] at plain
        simp at plain

def LowersAscii (lower : String → String) : Prop :=
  ∀ text : String, (∀ ch ∈ text.toList, ch.toNat < 128) → lower text = toAsciiLowercase text

/-- What normalisers expect of `str::to_lowercase`. -/
structure LowersText (lower : String → String) : Prop where
  ascii : LowersAscii lower
  stable : ∀ text other, other.toList ⊆ (lower text).toList → lower other = other
  nonempty : ∀ text, lower text = "" → text = ""
  spaced : ∀ leading text trailing, Blank leading → Blank trailing →
    (lower (String.ofList (leading ++ (text ++ trailing)))).toList =
      leading ++ ((lower (String.ofList text)).toList ++ trailing)
  trimmed : ∀ text, trim text = text → trim (lower text) = lower text
  slash : ∀ text, '/' ∈ (lower text).toList → '/' ∈ text.toList
  dot : ∀ text, trimEndMatches text '.' = text → trimEndMatches (lower text) '.' = lower text

section Ascii

variable {ch : Char}

theorem alphanum_iff : ch.isAlphanum = true ↔ (48 ≤ ch.toNat ∧ ch.toNat ≤ 57) ∨
    (65 ≤ ch.toNat ∧ ch.toNat ≤ 90) ∨ (97 ≤ ch.toNat ∧ ch.toNat ≤ 122) := by
  have spelled : ch.isAlphanum = ((decide ('A'.val ≤ ch.val ∧ ch.val ≤ 'Z'.val) ||
      (decide ('a'.val ≤ ch.val) && decide (ch.val ≤ 'z'.val))) ||
      (decide ('0'.val ≤ ch.val) && decide (ch.val ≤ '9'.val))) := rfl
  have value : ch.val.toNat = ch.toNat := rfl
  rw [spelled]
  simp only [Bool.or_eq_true, Bool.and_eq_true, decide_eq_true_eq, UInt32.le_iff_toNat_le, value]
  simp
  omega

theorem to_lower_nat (ch : Char) :
    (65 ≤ ch.toNat ∧ ch.toNat ≤ 90 ∧ ch.toLower.toNat = ch.toNat + 32) ∨
      ch.toLower = ch ∧ ¬(65 ≤ ch.toNat ∧ ch.toNat ≤ 90) := by
  by_cases upper : ch.val ≥ 'A'.val ∧ ch.val ≤ 'Z'.val
  · left
    have moved := congrArg UInt32.toNat (to_lower_upper upper)
    have low : 65 ≤ ch.toNat := UInt32.le_iff_toNat_le.mp upper.1
    have high : ch.toNat ≤ 90 := UInt32.le_iff_toNat_le.mp upper.2
    rw [UInt32.toNat_add] at moved
    simp only [UInt32.reduceToNat] at moved
    have value : ch.val.toNat = ch.toNat := rfl
    have lowered : ch.toLower.val.toNat = ch.toLower.toNat := rfl
    refine ⟨low, high, ?_⟩
    omega
  · right
    refine ⟨to_lower_other upper, ?_⟩
    intro range
    exact upper ⟨UInt32.le_iff_toNat_le.mpr range.1, UInt32.le_iff_toNat_le.mpr range.2⟩

theorem is_whitespace_lower (ch : Char) : isWhitespace ch.toLower = isWhitespace ch := by
  rcases to_lower_nat ch with ⟨low, high, moved⟩ | ⟨same, -⟩
  · have letter : ∀ other : Char, 65 ≤ other.toNat → other.toNat ≤ 122 →
        isWhitespace other = false := by
      intro other low high
      unfold isWhitespace
      simp
      omega
    rw [letter ch low (by omega), letter ch.toLower (by omega) (by omega)]
  · rw [same]

theorem to_lower_eq_iff {mark : Char} (low : mark.toNat < 65) : ch.toLower = mark ↔ ch = mark := by
  rcases to_lower_nat ch with ⟨atLeast, -, moved⟩ | ⟨same, -⟩
  · constructor
    · intro isMark
      rw [isMark] at moved
      omega
    · intro isMark
      rw [isMark] at atLeast
      omega
  · rw [same]

theorem drop_while_lower {holds : Char → Bool} (same : ∀ ch : Char, holds ch.toLower = holds ch)
    (chars : List Char) :
    (chars.map Char.toLower).dropWhile holds = (chars.dropWhile holds).map Char.toLower := by
  rw [List.dropWhile_map]
  apply congrArg (List.map Char.toLower)
  apply congrArg (fun holds => List.dropWhile holds chars)
  funext ch
  exact same ch

theorem trim_chars_lower (chars : List Char) :
    trimChars (chars.map Char.toLower) = (trimChars chars).map Char.toLower := by
  unfold trimChars
  rw [drop_while_lower is_whitespace_lower, ← List.map_reverse,
    drop_while_lower is_whitespace_lower, List.map_reverse]

theorem trim_end_matches_lower (text : String) {mark : Char} (low : mark.toNat < 65) :
    trimEndMatches (toAsciiLowercase text) mark = toAsciiLowercase (trimEndMatches text mark) := by
  have same : ∀ ch : Char, decide (ch.toLower = mark) = decide (ch = mark) := fun ch =>
    decide_eq_decide.mpr (to_lower_eq_iff low)
  unfold trimEndMatches toAsciiLowercase
  rw [String.toList_ofList, String.toList_ofList, ← List.map_reverse, drop_while_lower same,
    List.map_reverse]

end Ascii

theorem to_ascii_lowercase_append (text more : String) :
    toAsciiLowercase (text ++ more) = toAsciiLowercase text ++ toAsciiLowercase more := by
  unfold toAsciiLowercase
  rw [String.toList_append, List.map_append, String.ofList_append]

theorem to_ascii_lowercase_length (text : String) :
    (toAsciiLowercase text).toList.length = text.toList.length := by
  unfold toAsciiLowercase
  rw [String.toList_ofList, List.length_map]

theorem map_lower_kept {chars : List Char} (kept : ∀ ch ∈ chars, ch.toLower = ch) :
    chars.map Char.toLower = chars :=
  (List.map_congr_left kept).trans (List.map_id chars)

theorem ascii_lowers_text : LowersText toAsciiLowercase where
  ascii _ _ := rfl
  stable text other within := by
    unfold toAsciiLowercase
    have kept : other.toList.map Char.toLower = other.toList := by
      apply map_lower_kept
      intro ch member
      have lowered := within member
      unfold toAsciiLowercase at lowered
      rw [String.toList_ofList] at lowered
      obtain ⟨before, -, same⟩ := List.mem_map.mp lowered
      rw [← same, to_lower_idem]
    rw [kept, String.ofList_toList]
  nonempty text empty := by
    have none := congrArg String.toList empty
    unfold toAsciiLowercase at none
    rw [String.toList_ofList] at none
    have nothing : text.toList = [] := by simpa using none
    rw [← @String.ofList_toList text, nothing]
  spaced leading text trailing blankLeading blankTrailing := by
    have kept : ∀ spaces : List Char, Blank spaces → spaces.map Char.toLower = spaces := by
      intro spaces blank
      apply map_lower_kept
      intro ch member
      have space := blank ch member
      rcases to_lower_nat ch with ⟨low, high, -⟩ | ⟨same, -⟩
      · unfold isWhitespace at space
        simp at space
        omega
      · exact same
    unfold toAsciiLowercase
    simp only [String.toList_ofList, List.map_append]
    rw [kept leading blankLeading, kept trailing blankTrailing]
  trimmed text trimmed := by
    have chars := congrArg String.toList trimmed
    unfold trim at chars
    rw [String.toList_ofList] at chars
    unfold trim toAsciiLowercase
    rw [String.toList_ofList, trim_chars_lower, chars]
  slash text member := by
    unfold toAsciiLowercase at member
    rw [String.toList_ofList] at member
    obtain ⟨ch, among, same⟩ := List.mem_map.mp member
    rwa [(to_lower_eq_iff (by decide)).mp same] at among
  dot text trimmed := by rw [trim_end_matches_lower text (by decide), trimmed]

end Containr.Text
