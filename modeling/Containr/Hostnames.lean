import Containr.Trimming
import Mathlib.Data.List.Chain

/-!
# Hostnames of containers

`build_container_hostname` of `containr-runtime/src/docker.rs`. All that is pushed is ASCII, so
the length in bytes is the number of characters.
-/

namespace Containr

open Containr.Text

def normalizeHostnameChar (ch : Char) : Char :=
  if isAsciiAlphanumeric ch then ch.toLower else '-'

/-- The loop: a dash is not pushed after a dash, and 63 characters end it. -/
def pushHostname (hostname : List Char) : List Char → List Char
  | [] => hostname
  | ch :: rest =>
      let normalized := normalizeHostnameChar ch
      if normalized = '-' ∧ hostname.getLast? = some '-' then pushHostname hostname rest
      else if 63 ≤ (hostname ++ [normalized]).length then hostname ++ [normalized]
      else pushHostname (hostname ++ [normalized]) rest

def buildContainerHostname (id : String) : String :=
  let pushed := String.ofList (pushHostname [] id.toList)
  let hostname := trimStartMatches (trimEndMatches pushed '-') "-"
  if hostname.isEmpty then "containr" else hostname

def isHostnameChar (ch : Char) : Bool :=
  ('a' ≤ ch && ch ≤ 'z') || ('0' ≤ ch && ch ≤ '9') || ch = '-'

/-- At most 63 lower-case letters, digits and dashes; no dash follows a dash. -/
structure HostnameText (text : List Char) : Prop where
  allowed : ∀ ch ∈ text, isHostnameChar ch = true
  short : text.length ≤ 63
  single : text.IsChain fun ch next => ¬(ch = '-' ∧ next = '-')

structure ValidHostname (hostname : String) : Prop where
  text : HostnameText hostname.toList
  nonempty : hostname ≠ ""
  start : hostname.toList.head? ≠ some '-'
  stop : hostname.toList.getLast? ≠ some '-'

variable {ch : Char}

theorem hostname_char_iff : isHostnameChar ch = true ↔
    (97 ≤ ch.toNat ∧ ch.toNat ≤ 122) ∨ (48 ≤ ch.toNat ∧ ch.toNat ≤ 57) ∨ ch = '-' := by
  have le (low high : Char) : low ≤ high ↔ low.toNat ≤ high.toNat := UInt32.le_iff_toNat_le
  simp [isHostnameChar, le, or_assoc]

theorem normalized_char (ch : Char) : isHostnameChar (normalizeHostnameChar ch) = true := by
  rw [hostname_char_iff]
  unfold normalizeHostnameChar
  split_ifs with plain
  · have range := alphanum_iff.mp plain
    rcases to_lower_nat ch with ⟨low, high, moved⟩ | ⟨same, other⟩
    · left
      rw [moved]
      omega
    · rw [same]
      omega
  · simp

theorem normalize_hostname_char (valid : isHostnameChar ch = true) :
    normalizeHostnameChar ch = ch := by
  have kept : ch.toNat < 65 ∨ 90 < ch.toNat → ch.toLower = ch := by
    intro outside
    rcases to_lower_nat ch with ⟨low, high, -⟩ | ⟨same, -⟩
    · omega
    · exact same
  unfold normalizeHostnameChar
  rcases hostname_char_iff.mp valid with letter | digit | dash
  · have plain : isAsciiAlphanumeric ch = true := alphanum_iff.mpr (Or.inr (Or.inr letter))
    rw [if_pos plain, kept (by omega)]
  · have plain : isAsciiAlphanumeric ch = true := alphanum_iff.mpr (Or.inl digit)
    rw [if_pos plain, kept (by omega)]
  · rw [dash]
    decide

theorem HostnameText.infix {whole part : List Char} (text : HostnameText whole)
    (inside : part <:+: whole) : HostnameText part where
  allowed ch member := text.allowed ch (inside.subset member)
  short := inside.length_le.trans text.short
  single := text.single.infix inside

variable {hostname : List Char}

theorem HostnameText.push (text : HostnameText hostname) (room : hostname.length < 63)
    (valid : isHostnameChar ch = true) (single : ¬(ch = '-' ∧ hostname.getLast? = some '-')) :
    HostnameText (hostname ++ [ch]) where
  allowed other member := by
    rcases List.mem_append.mp member with before | last
    · exact text.allowed other before
    · rw [List.mem_singleton.mp last]
      exact valid
  short := by
    rw [List.length_append, List.length_singleton]
    omega
  single := by
    apply text.single.append (List.isChain_singleton ch)
    intro last isLast next isNext both
    simp only [List.head?_cons, Option.mem_def, Option.some.injEq] at isLast isNext
    rw [isNext] at single
    rw [both.1] at isLast
    exact single ⟨both.2, isLast⟩

theorem push_hostname_text (rest : List Char) (text : HostnameText hostname)
    (room : hostname.length < 63) : HostnameText (pushHostname hostname rest) := by
  induction rest generalizing hostname with
  | nil => exact text
  | cons ch rest ih =>
      unfold pushHostname
      dsimp only
      split_ifs with again full
      · exact ih text room
      · exact text.push room (normalized_char ch) again
      · exact ih (text.push room (normalized_char ch) again) (by omega)

theorem push_hostname_all {rest : List Char} (text : HostnameText (hostname ++ rest)) :
    pushHostname hostname rest = hostname ++ rest := by
  induction rest generalizing hostname with
  | nil => simp [pushHostname]
  | cons ch rest ih =>
      have valid : isHostnameChar ch = true := text.allowed ch (by simp)
      have single : ¬(ch = '-' ∧ hostname.getLast? = some '-') := by
        intro both
        have joint := (List.isChain_append.mp text.single).2.2 '-' both.2 ch rfl
        exact joint ⟨rfl, both.1⟩
      have whole : hostname ++ ch :: rest = (hostname ++ [ch]) ++ rest := by simp
      unfold pushHostname
      rw [normalize_hostname_char valid]
      dsimp only
      rw [if_neg single]
      split_ifs with full
      · have short := text.short
        rw [List.length_append, List.length_cons] at short
        rw [List.length_append, List.length_singleton] at full
        have nothing : rest = [] := List.length_eq_zero_iff.mp (by omega)
        rw [nothing]
      · rw [whole] at text ⊢
        exact ih text

def withoutDashes (text : List Char) : List Char :=
  (text.rdropWhile fun ch => decide (ch = '-')).dropWhile fun ch => decide (ch = '-')

theorem without_dashes_part (text : List Char) : withoutDashes text <:+: text :=
  (List.dropWhile_suffix _).isInfix.trans (List.rdropWhile_prefix _ text).isInfix

theorem trimmed_dashes (text : List Char) :
    trimStartMatches (trimEndMatches (String.ofList text) '-') "-" =
      String.ofList (withoutDashes text) := by
  have dash : "-" = String.singleton '-' := rfl
  rw [dash, trim_start_matches_mark]
  unfold trimEndMatches withoutDashes List.rdropWhile
  rw [String.toList_ofList, String.toList_ofList]

theorem without_dashes_start (text : List Char) : (withoutDashes text).head? ≠ some '-' := by
  intro start
  have other := List.head?_dropWhile_not (fun ch => decide (ch = '-'))
    (text.rdropWhile fun ch => decide (ch = '-'))
  unfold withoutDashes at start
  rw [start] at other
  simp at other

theorem without_dashes_stop (text : List Char) : (withoutDashes text).getLast? ≠ some '-' := by
  intro stop
  have nonempty : withoutDashes text ≠ [] := by
    intro nothing
    rw [nothing] at stop
    cases stop
  have suffix : withoutDashes text <:+ text.rdropWhile fun ch => decide (ch = '-') :=
    List.dropWhile_suffix _
  obtain ⟨front, whole⟩ := suffix
  have last : (text.rdropWhile fun ch => decide (ch = '-')).getLast? = some '-' := by
    rw [← whole, List.getLast?_append_of_ne_nil _ nonempty]
    exact stop
  have present : (text.rdropWhile fun ch => decide (ch = '-')) ≠ [] := by
    intro nothing
    rw [nothing] at last
    cases last
  have other := List.rdropWhile_last_not _ text present
  rw [List.getLast?_eq_some_getLast present] at last
  simp [Option.some.inj last] at other

theorem without_dashes_kept {text : List Char} (start : text.head? ≠ some '-')
    (stop : text.getLast? ≠ some '-') : withoutDashes text = text := by
  have back : text.rdropWhile (fun ch => decide (ch = '-')) = text := by
    rw [List.rdropWhile_eq_self_iff]
    intro nonempty last
    rw [List.getLast?_eq_some_getLast nonempty] at stop
    exact stop (congrArg some (of_decide_eq_true last))
  unfold withoutDashes
  rw [back]
  cases text with
  | nil => rfl
  | cons ch rest =>
      apply List.dropWhile_cons_of_neg
      simpa using start

theorem build_hostname_eq (id : String) : buildContainerHostname id =
    if withoutDashes (pushHostname [] id.toList) = [] then "containr"
    else String.ofList (withoutDashes (pushHostname [] id.toList)) := by
  unfold buildContainerHostname
  simp only [trimmed_dashes]
  by_cases nothing : withoutDashes (pushHostname [] id.toList) = []
  · simp [nothing]
  · have nonempty : String.ofList (withoutDashes (pushHostname [] id.toList)) ≠ "" := by
      intro empty
      have none := congrArg String.toList empty
      rw [String.toList_ofList] at none
      exact nothing none
    rw [if_neg nothing, if_neg (by simpa using nonempty)]

theorem HostnameText.nil : HostnameText [] where
  allowed _ member := absurd member List.not_mem_nil
  short := Nat.zero_le 63
  single := List.isChain_nil

theorem default_hostname_valid : ValidHostname "containr" where
  text := {
    allowed := every_char (by decide)
    short := by decide
    single := by decide }
  nonempty := by decide
  start := by decide
  stop := by decide

theorem build_hostname_valid (id : String) : ValidHostname (buildContainerHostname id) := by
  have text : HostnameText (pushHostname [] id.toList) :=
    push_hostname_text id.toList HostnameText.nil (by decide)
  rw [build_hostname_eq]
  split_ifs with nothing
  · exact default_hostname_valid
  · constructor
    · rw [String.toList_ofList]
      exact text.infix (without_dashes_part _)
    · intro empty
      have none := congrArg String.toList empty
      rw [String.toList_ofList] at none
      exact nothing none
    · rw [String.toList_ofList]
      exact without_dashes_start _
    · rw [String.toList_ofList]
      exact without_dashes_stop _

theorem build_hostname_kept {hostname : String} (valid : ValidHostname hostname) :
    buildContainerHostname hostname = hostname := by
  have pushed : pushHostname [] hostname.toList = hostname.toList :=
    push_hostname_all (by rw [List.nil_append]; exact valid.text)
  have nonempty : hostname.toList ≠ [] := by
    intro nothing
    apply valid.nonempty
    rw [← @String.ofList_toList hostname, nothing]
  rw [build_hostname_eq, pushed, without_dashes_kept valid.start valid.stop, if_neg nonempty,
    String.ofList_toList]

/-- Hostnames are valid for every id; a valid hostname stays, and nothing else does. -/
theorem container_hostname_valid (id : String) : ValidHostname (buildContainerHostname id) ∧
    (buildContainerHostname id = id ↔ ValidHostname id) := by
  constructor
  · exact build_hostname_valid id
  · constructor
    · intro same
      have valid := build_hostname_valid id
      rwa [same] at valid
    · exact build_hostname_kept

example : buildContainerHostname "My--Shop_ü!.web-" = "my-shop-web" := by decide

end Containr
