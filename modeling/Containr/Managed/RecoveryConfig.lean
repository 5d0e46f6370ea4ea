import Containr.Managed.Pitr
import Containr.Trimming

/-!
# The recovery configuration

What `write_recovery_config` makes of `postgresql.auto.conf`. How postgres reads a line is a
parameter; `Documented` says what is known of it: a value stands between quotes, a doubled quote in
it is one, and a backslash takes what follows with it.
-/

namespace Containr.Managed.Pitr

open Containr.Api.SharedMounts

def quote : Char := '\x27'

def backslash : Char := '\x5c'

def Plain (value : List Char) : Prop := ∀ ch ∈ value, ch ≠ quote ∧ ch ≠ backslash ∧ ch ≠ '\n'

theorem plain_all (value : List Char) :
    (value.all fun ch => ch ≠ quote && ch ≠ backslash && ch ≠ '\n') = true ↔ Plain value := by
  simp [Plain, and_assoc]

instance (value : List Char) : Decidable (Plain value) := decidable_of_iff _ (plain_all value)

inductive Unquotes : List Char → List Char → Prop
  | nil : Unquotes [] []
  | plain {body value : List Char} (ch : Char) (noQuote : ch ≠ quote) (noBackslash : ch ≠ backslash)
      (rest : Unquotes body value) : Unquotes (ch :: body) (ch :: value)
  | doubled {body value : List Char} (rest : Unquotes body value) :
      Unquotes (quote :: quote :: body) (quote :: value)
  | escaped {taken body value : List Char} (ch : Char) (some : taken ≠ [])
      (rest : Unquotes body value) : Unquotes (backslash :: taken ++ body) (ch :: value)

theorem Unquotes.shorter {body value : List Char} (unquotes : Unquotes body value) :
    value.length ≤ body.length := by
  induction unquotes with
  | nil => exact Nat.le_refl 0
  | plain ch _ _ _ ih => simpa using ih
  | doubled _ ih =>
      simp only [List.length_cons]
      omega
  | escaped ch _ _ ih =>
      simp only [List.length_cons, List.length_append]
      omega

theorem Unquotes.same {body value : List Char} (unquotes : Unquotes body value)
    (length : body.length ≤ value.length) :
    body = value ∧ ∀ ch ∈ value, ch ≠ quote ∧ ch ≠ backslash := by
  induction unquotes with
  | nil => simp
  | plain ch noQuote noBackslash _ ih =>
      obtain ⟨same, plain⟩ := ih (by simpa using length)
      refine ⟨by rw [same], ?_⟩
      intro other member
      rcases List.mem_cons.mp member with first | later
      · rw [first]
        exact ⟨noQuote, noBackslash⟩
      · exact plain other later
  | doubled rest _ =>
      have shorter := rest.shorter
      simp only [List.length_cons] at length
      omega
  | @escaped taken body value ch nonempty rest _ =>
      have shorter := rest.shorter
      have positive := List.length_pos_of_ne_nil nonempty
      simp only [List.length_cons, List.length_append] at length
      omega

/-- How postgres reads a line: the setting of a parameter, or none. -/
structure Documented (reads : String → Option (String × String)) : Prop where
  plain : ∀ key ∈ recoveryManagedKeys, ∀ value : String, Plain value.toList →
    reads (setting key value) = some (key, value)
  quoted : ∀ key ∈ recoveryManagedKeys, ∀ rest name value : String,
    reads (key ++ " = '" ++ rest) = some (name, value) → name = key ∧
      ∃ body tail, rest.toList = body ++ quote :: tail ∧ Unquotes body value.toList
  shorter : ∀ line name value, reads line = some (name, value) → value.length < line.length

theorem Documented.reads_back_iff {reads : String → Option (String × String)}
    (documented : Documented reads) {key : String} (managed : key ∈ recoveryManagedKeys)
    {value : String} (oneLine : '\n' ∉ value.toList) :
    reads (setting key value) = some (key, value) ↔ Plain value.toList := by
  constructor
  · intro readsBack
    have whole : setting key value = key ++ " = '" ++ (value ++ "'") := by
      unfold setting
      rw [String.append_assoc]
    rw [whole] at readsBack
    obtain ⟨-, body, tail, isRest, unquotes⟩ := documented.quoted key managed _ _ _ readsBack
    have isQuote : "'".toList = [quote] := rfl
    rw [String.toList_append, isQuote] at isRest
    have lengths := congrArg List.length isRest
    have shorter := unquotes.shorter
    simp only [List.length_append, List.length_cons, List.length_nil] at lengths
    obtain ⟨-, plain⟩ := unquotes.same (by omega)
    intro ch member
    refine ⟨(plain ch member).1, (plain ch member).2, ?_⟩
    intro isEnd
    rw [isEnd] at member
    exact oneLine member
  · intro plain
    exact documented.plain key managed value plain

inductive RecoveryTarget (Moment : Type) where
  | restorePoint (name : String)
  | time (moment : Moment)

section Target

variable {Moment : Type}

def RecoveryTarget.restorePoint? : RecoveryTarget Moment → Option String
  | .restorePoint name => some name
  | .time _ => none

def RecoveryTarget.targetTime? : RecoveryTarget Moment → Option Moment
  | .restorePoint _ => none
  | .time moment => some moment

def RecoveryTarget.key : RecoveryTarget Moment → String
  | .restorePoint _ => "recovery_target_name"
  | .time _ => "recovery_target_time"

def RecoveryTarget.otherKey : RecoveryTarget Moment → String
  | .restorePoint _ => "recovery_target_time"
  | .time _ => "recovery_target_name"

variable (toRfc3339 : Moment → String)

def RecoveryTarget.value : RecoveryTarget Moment → String
  | .restorePoint name => name
  | .time moment => toRfc3339 moment

def confFor (existing : String) (target : RecoveryTarget Moment) : String :=
  recoveryConf toRfc3339 existing target.restorePoint? target.targetTime?

end Target

section Precise

variable (reads : String → Option (String × String))

def valueIn (key line : String) : Option String :=
  (reads line).bind fun pair => if pair.1 = key then some pair.2 else none

def valuesOf (key text : String) : List String := (Text.lines text).filterMap (valueIn reads key)

def setsManaged (line : String) : Bool :=
  (reads line).any fun pair => recoveryManagedKeys.contains pair.1

def otherLines (text : String) : List String :=
  (Text.lines text).filter fun line => !setsManaged reads line

/-- What is asked of the file after it, the settings of a line being those that postgres reads. -/
structure Precise {Moment : Type} (toRfc3339 : Moment → String) (existing after : String)
    (target : RecoveryTarget Moment) : Prop where
  others : otherLines reads after = otherLines reads existing
  command : (valuesOf reads "restore_command" after).length = 1
  action : (valuesOf reads "recovery_target_action" after).length = 1
  requested : (valuesOf reads target.key after).length = 1
  otherTarget : valuesOf reads target.otherKey after = []
  readsBack : (Text.lines after).getLast?.bind reads = some (target.key, target.value toRfc3339)

def confIn (entries : Entries) : Option String :=
  match find "postgresql.auto.conf" entries with
  | none => some ""
  | some (.file content) => some content
  | some _ => none

/-- Every call that goes through on a data directory with this file, and every call behind it. -/
def WritesPrecisely {Moment : Type} (toRfc3339 : Moment → String) (existing : String)
    (target : RecoveryTarget Moment) : Prop :=
  ∀ entries : Entries, ∀ replies, confIn entries = some existing →
    let written := writeRecoveryConfig toRfc3339 target.restorePoint? target.targetTime? entries replies
    written.result = .ok () → ∃ after, confIn written.made = some after ∧
      Precise reads toRfc3339 existing after target ∧
      ∀ others,
        let again := writeRecoveryConfig toRfc3339 target.restorePoint? target.targetTime?
          written.made others
        again.result = .ok () → confIn again.made = some after

/-- A line begins with the text of a managed key exactly if it sets one, and no other line ends in a
carriage return. -/
def LinesFit (existing : String) : Prop :=
  ∀ line ∈ Text.lines existing, isManaged line = setsManaged reads line ∧
    (isManaged line = false → Text.readLine line = line)

end Precise

section Lines

variable {Moment : Type} (toRfc3339 : Moment → String)

def keptLines (existing : String) : List String :=
  (Text.lines existing).filter fun line => !isManaged line

def restoreCommand : String := setting "restore_command" ("cp " ++ postgresPitrWalPath ++ "/%f %p")

def targetAction : String := setting "recovery_target_action" "promote"

def targetLine (target : RecoveryTarget Moment) : String :=
  setting target.key (target.value toRfc3339)

theorem managed_lines_eq (target : RecoveryTarget Moment) :
    managedLines toRfc3339 target.restorePoint? target.targetTime? =
      [restoreCommand, targetAction, targetLine toRfc3339 target] := by
  cases target <;> rfl

theorem target_managed (target : RecoveryTarget Moment) :
    target.key ∈ recoveryManagedKeys ∧ target.otherKey ∈ recoveryManagedKeys := by
  cases target <;> simp [RecoveryTarget.key, RecoveryTarget.otherKey, recoveryManagedKeys]

theorem managed_key_plain : ∀ key ∈ recoveryManagedKeys, '\n' ∉ key.toList := by decide

theorem lines_plain (text : String) : ∀ line ∈ Text.lines text, '\n' ∉ line.toList := by
  intro line member
  obtain ⟨chars, inside, same⟩ := List.mem_map.mp member
  rw [← same, String.toList_ofList]
  exact Text.lines_from_plain (by simp) chars inside

variable (existing : String)

theorem conf_written (target : RecoveryTarget Moment) :
    (confFor toRfc3339 existing target).toList = Text.written
      (keptLines existing ++ [restoreCommand, targetAction, targetLine toRfc3339 target]) := by
  unfold confFor recoveryConf
  rw [managed_lines_eq, Text.join_written (by simp)]
  rfl

theorem setting_plain {key value : String} (plain : '\n' ∉ key.toList ∧ '\n' ∉ value.toList) :
    '\n' ∉ (setting key value).toList := by
  unfold setting
  simp only [String.toList_append, List.mem_append, not_or]
  exact ⟨⟨⟨plain.1, by decide⟩, plain.2⟩, by decide⟩

variable {target : RecoveryTarget Moment}

theorem target_line_plain (oneLine : '\n' ∉ (target.value toRfc3339).toList) :
    '\n' ∉ (targetLine toRfc3339 target).toList :=
  setting_plain ⟨managed_key_plain _ (target_managed target).1, oneLine⟩

theorem read_quoted (chars : List Char) :
    Text.readLine (String.ofList (chars ++ [quote])) = String.ofList (chars ++ [quote]) := by
  unfold Text.readLine Text.stripReturn
  rw [String.toList_ofList, List.getLast?_concat, if_neg (by decide)]

theorem read_setting (key value : String) : Text.readLine (setting key value) = setting key value := by
  have whole : setting key value =
      String.ofList ((key ++ " = '" ++ value).toList ++ [quote]) := by
    apply String.toList_injective
    unfold setting
    rw [String.toList_append, String.toList_ofList, String.toList_ofList]
    rfl
  rw [whole]
  exact read_quoted _

theorem parts_plain (oneLine : '\n' ∉ (target.value toRfc3339).toList) {lines : List String}
    (plain : ∀ line ∈ lines, '\n' ∉ line.toList) :
    ∀ part ∈ lines ++ [restoreCommand, targetAction, targetLine toRfc3339 target],
      '\n' ∉ part.toList := by
  intro part member
  rcases List.mem_append.mp member with old | new
  · exact plain part old
  · simp only [List.mem_cons, List.not_mem_nil, or_false] at new
    rcases new with same | same | same
    · rw [same]
      decide
    · rw [same]
      decide
    · rw [same]
      exact target_line_plain toRfc3339 oneLine

theorem kept_plain : ∀ line ∈ keptLines existing, '\n' ∉ line.toList :=
  fun line member => lines_plain existing line (List.mem_of_mem_filter member)

theorem conf_lines (oneLine : '\n' ∉ (target.value toRfc3339).toList) :
    Text.lines (confFor toRfc3339 existing target) = (keptLines existing).map Text.readLine ++
      [restoreCommand, targetAction, targetLine toRfc3339 target] := by
  have plain := parts_plain toRfc3339 oneLine (kept_plain existing)
  unfold Text.lines
  rw [conf_written, Text.lines_written plain, List.map_append]
  simp [restoreCommand, targetAction, targetLine, read_setting]

theorem managed_key_visible : ∀ key ∈ recoveryManagedKeys,
    (key.toList.head?.any fun ch => !Text.isWhitespace ch) = true := by decide

theorem is_managed_iff {line : String} : isManaged line = true ↔
    ∃ key ∈ recoveryManagedKeys, key.toList <+: line.toList.dropWhile Text.isWhitespace := by
  unfold isManaged Text.startsWith Text.trimStart
  simp [List.any_eq_true]

theorem setting_managed {key : String} (managed : key ∈ recoveryManagedKeys) (value : String) :
    isManaged (setting key value) = true := by
  have visible := managed_key_visible key managed
  rw [is_managed_iff]
  refine ⟨key, managed, ?_⟩
  unfold setting
  rw [String.append_assoc, String.append_assoc, String.toList_append]
  cases chars : key.toList with
  | nil => simp [chars] at visible
  | cons first rest =>
      have plain : Text.isWhitespace first = false := by simpa [chars] using visible
      rw [List.cons_append, List.dropWhile_cons_of_neg (by simp [plain])]
      exact List.prefix_append _ _

theorem read_line_managed {line : String} (managed : isManaged (Text.readLine line) = true) :
    isManaged line = true := by
  rw [is_managed_iff] at managed ⊢
  obtain ⟨key, isKey, starts⟩ := managed
  refine ⟨key, isKey, ?_⟩
  unfold Text.readLine Text.stripReturn at starts
  rw [String.toList_ofList] at starts
  split_ifs at starts with ends
  · have nonempty : key.toList ≠ [] := by
      intro empty
      have visible := managed_key_visible key isKey
      simp [empty] at visible
    obtain ⟨front, whole⟩ : ∃ front, line.toList = front ++ ['\r'] :=
      List.getLast?_eq_some_iff.mp ends
    rw [whole, List.dropLast_concat] at starts
    have more : ¬(front.dropWhile Text.isWhitespace).isEmpty = true := by
      intro empty
      rw [List.isEmpty_iff.mp empty] at starts
      exact nonempty (List.prefix_nil.mp starts)
    rw [whole, List.dropWhile_append, if_neg more]
    exact starts.trans (List.prefix_append _ _)
  · exact starts

theorem kept_lines_conf (oneLine : '\n' ∉ (target.value toRfc3339).toList) :
    keptLines (confFor toRfc3339 existing target) = (keptLines existing).map Text.readLine := by
  have kept : ((keptLines existing).map Text.readLine).filter (fun line => !isManaged line) =
      (keptLines existing).map Text.readLine := by
    rw [List.filter_eq_self]
    intro line member
    obtain ⟨before, inside, same⟩ := List.mem_map.mp member
    have unmanaged := List.of_mem_filter inside
    rw [← same]
    by_contra managed
    rw [read_line_managed (by simpa using managed)] at unmanaged
    cases unmanaged
  have command : isManaged restoreCommand = true := setting_managed (by decide) _
  have action : isManaged targetAction = true := setting_managed (by decide) _
  have requested : isManaged (targetLine toRfc3339 target) = true :=
    setting_managed (target_managed target).1 _
  have whole : keptLines (confFor toRfc3339 existing target) =
      (Text.lines (confFor toRfc3339 existing target)).filter fun line => !isManaged line := rfl
  rw [whole, conf_lines toRfc3339 existing oneLine, List.filter_append, kept]
  simp [command, action, requested]

/-- Done twice it is what it is done once exactly if the lines that stay are read as they are. -/
theorem conf_twice_iff (oneLine : '\n' ∉ (target.value toRfc3339).toList) :
    confFor toRfc3339 (confFor toRfc3339 existing target) target =
        confFor toRfc3339 existing target ↔
      (keptLines existing).map Text.readLine = keptLines existing := by
  have again : ∀ line ∈ (keptLines existing).map Text.readLine, '\n' ∉ line.toList := by
    intro line member
    rw [← kept_lines_conf toRfc3339 existing oneLine] at member
    exact kept_plain _ line member
  constructor
  · intro same
    have chars := congrArg String.toList same
    rw [conf_written, conf_written, kept_lines_conf toRfc3339 existing oneLine] at chars
    exact List.append_cancel_right (Text.written_inj (parts_plain toRfc3339 oneLine again)
      (parts_plain toRfc3339 oneLine (kept_plain existing)) chars)
  · intro same
    apply String.toList_injective
    rw [conf_written, conf_written, kept_lines_conf toRfc3339 existing oneLine, same]

theorem conf_last_line {front back : List Char}
    (split : (target.value toRfc3339).toList = front ++ '\n' :: back) (plain : '\n' ∉ back) :
    (Text.lines (confFor toRfc3339 existing target)).getLast? =
      some (String.ofList (back ++ [quote])) := by
  have isQuote : "'".toList = [quote] := rfl
  have ends : ∃ before, (confFor toRfc3339 existing target).toList =
      before ++ '\n' :: ((back ++ [quote]) ++ '\n' :: []) := by
    refine ⟨Text.written (keptLines existing ++ [restoreCommand, targetAction]) ++
      (target.key.toList ++ " = '".toList ++ front), ?_⟩
    rw [conf_written]
    simp [Text.written, targetLine, setting, split, isQuote]
  obtain ⟨before, whole⟩ := ends
  have noEnd : '\n' ∉ back ++ [quote] := by
    intro member
    rcases List.mem_append.mp member with early | last
    · exact plain early
    · exact absurd (List.mem_singleton.mp last) (by decide)
  unfold Text.lines
  have read := read_quoted back
  unfold Text.readLine at read
  rw [String.toList_ofList] at read
  rw [whole, Text.lines_from_split, Text.lines_from_end noEnd, List.map_append]
  simp [Text.linesFrom, read]

end Lines

section Precise

variable {Moment : Type} {toRfc3339 : Moment → String}
  {reads : String → Option (String × String)} (documented : Documented reads) {existing : String}
  {target : RecoveryTarget Moment}

include documented

theorem value_plain (readsBack : (Text.lines (confFor toRfc3339 existing target)).getLast?.bind reads =
    some (target.key, target.value toRfc3339)) : Plain (target.value toRfc3339).toList := by
  by_cases oneLine : '\n' ∈ (target.value toRfc3339).toList
  · obtain ⟨turned, early, split, plain⟩ :=
      List.eq_append_cons_of_mem (List.mem_reverse.mpr oneLine)
    have whole : (target.value toRfc3339).toList = early.reverse ++ '\n' :: turned.reverse := by
      rw [← List.reverse_reverse (target.value toRfc3339).toList, split]
      simp
    rw [conf_last_line toRfc3339 existing whole (by simpa using plain), Option.bind_some] at readsBack
    have shorter := documented.shorter _ _ _ readsBack
    have length := congrArg List.length whole
    rw [String.length_ofList, ← String.length_toList] at shorter
    simp only [List.length_append, List.length_cons, List.length_nil] at shorter length
    omega
  · rw [conf_lines toRfc3339 existing oneLine] at readsBack
    simp only [List.getLast?_append, List.getLast?_cons_cons, List.getLast?_singleton,
      Option.some_or, Option.bind_some] at readsBack
    exact (documented.reads_back_iff (target_managed target).1 oneLine).mp readsBack

theorem new_lines_read (dated : Plain (target.value toRfc3339).toList) :
    reads restoreCommand =
        some ("restore_command", "cp " ++ postgresPitrWalPath ++ "/%f %p") ∧
      reads targetAction = some ("recovery_target_action", "promote") ∧
      reads (targetLine toRfc3339 target) = some (target.key, target.value toRfc3339) := by
  refine ⟨?_, ?_, ?_⟩
  · exact documented.plain _ (by decide) _ (by decide)
  · exact documented.plain _ (by decide) _ (by decide)
  · exact documented.plain _ (target_managed target).1 _ dated

/-- Each key but that of the other target is set once by them. -/
theorem new_values (plain : Plain (target.value toRfc3339).toList) {key : String}
    (managed : key ∈ recoveryManagedKeys) :
    ([restoreCommand, targetAction, targetLine toRfc3339 target].filterMap
      (valueIn reads key)).length = if key = target.otherKey then 0 else 1 := by
  obtain ⟨command, action, requested⟩ := new_lines_read documented plain
  unfold valueIn
  simp only [List.filterMap_cons, List.filterMap_nil, command, action, requested, Option.bind_some]
  simp only [recoveryManagedKeys, List.mem_cons, List.not_mem_nil, or_false] at managed
  rcases managed with same | same | same | same <;> rw [same] <;>
    cases target <;> simp [RecoveryTarget.key, RecoveryTarget.otherKey]

omit documented in
theorem sets_managed_iff {line : String} : setsManaged reads line = true ↔
    ∃ key ∈ recoveryManagedKeys, ∃ value, valueIn reads key line = some value := by
  unfold setsManaged valueIn
  cases read : reads line with
  | none => simp
  | some pair =>
      obtain ⟨name, value⟩ := pair
      simp

theorem new_lines_set (plain : Plain (target.value toRfc3339).toList) :
    ∀ line ∈ [restoreCommand, targetAction, targetLine toRfc3339 target],
      setsManaged reads line = true := by
  obtain ⟨command, action, requested⟩ := new_lines_read documented plain
  have managed := (target_managed target).1
  intro line member
  unfold setsManaged
  simp only [List.mem_cons, List.not_mem_nil, or_false] at member
  rcases member with same | same | same
  · rw [same, command]
    decide
  · rw [same, action]
    decide
  · rw [same, requested]
    simpa using managed

/-- The keys are set once or not at all exactly if no line that stays sets one. -/
theorem settings_counted_iff (plain : Plain (target.value toRfc3339).toList) {kept : List String}
    (lines : Text.lines (confFor toRfc3339 existing target) =
      kept ++ [restoreCommand, targetAction, targetLine toRfc3339 target]) :
    (∀ key ∈ recoveryManagedKeys, (valuesOf reads key (confFor toRfc3339 existing target)).length =
        if key = target.otherKey then 0 else 1) ↔
      ∀ line ∈ kept, setsManaged reads line = false := by
  have counted {key : String} (managed : key ∈ recoveryManagedKeys) :
      (valuesOf reads key (confFor toRfc3339 existing target)).length =
        (kept.filterMap (valueIn reads key)).length + if key = target.otherKey then 0 else 1 := by
    unfold valuesOf
    rw [lines, List.filterMap_append, List.length_append, new_values documented plain managed]
  constructor
  · intro once line member
    by_contra sets
    obtain ⟨key, managed, value, found⟩ := sets_managed_iff.mp (by simpa using sets)
    have count := once key managed
    rw [counted managed] at count
    have nothing := List.length_eq_zero_iff.mp (by omega :
      (kept.filterMap (valueIn reads key)).length = 0)
    have none := List.filterMap_eq_nil_iff.mp nothing line member
    rw [found] at none
    cases none
  · intro unset key managed
    have nothing : kept.filterMap (valueIn reads key) = [] := by
      rw [List.filterMap_eq_nil_iff]
      intro line member
      by_contra found
      obtain ⟨value, isValue⟩ := Option.ne_none_iff_exists'.mp found
      have sets := sets_managed_iff.mpr ⟨key, managed, value, isValue⟩
      rw [unset line member] at sets
      cases sets
    rw [counted managed, nothing, List.length_nil, Nat.zero_add]

omit documented in
theorem Precise.counted
    (precise : Precise reads toRfc3339 existing (confFor toRfc3339 existing target) target) :
    ∀ key ∈ recoveryManagedKeys, (valuesOf reads key (confFor toRfc3339 existing target)).length =
      if key = target.otherKey then 0 else 1 := by
  intro key managed
  have other := congrArg List.length precise.otherTarget
  have requested := precise.requested
  simp only [recoveryManagedKeys, List.mem_cons, List.not_mem_nil, or_false] at managed
  cases target <;> rcases managed with same | same | same | same <;> rw [same] <;>
    simp only [RecoveryTarget.key, RecoveryTarget.otherKey] at requested other ⊢ <;>
    simp [precise.command, precise.action, requested, other]

/-- The lines that set nothing are those that stay, if these set nothing. -/
theorem other_lines_conf (plain : Plain (target.value toRfc3339).toList) {kept : List String}
    (lines : Text.lines (confFor toRfc3339 existing target) =
      kept ++ [restoreCommand, targetAction, targetLine toRfc3339 target])
    (unset : ∀ line ∈ kept, setsManaged reads line = false) :
    otherLines reads (confFor toRfc3339 existing target) = kept := by
  have none : [restoreCommand, targetAction, targetLine toRfc3339 target].filter
      (fun line => !setsManaged reads line) = [] := by
    rw [List.filter_eq_nil_iff]
    intro line member
    rw [new_lines_set documented plain line member]
    simp
  have all : kept.filter (fun line => !setsManaged reads line) = kept := by
    rw [List.filter_eq_self]
    intro line member
    rw [unset line member]
    rfl
  unfold otherLines
  rw [lines, List.filter_append, none, all, List.append_nil]

theorem conf_precise_iff : Precise reads toRfc3339 existing (confFor toRfc3339 existing target) target ∧
      confFor toRfc3339 (confFor toRfc3339 existing target) target =
        confFor toRfc3339 existing target ↔
    LinesFit reads existing ∧ Plain (target.value toRfc3339).toList := by
  constructor
  · intro both
    obtain ⟨precise, twice⟩ := both
    have plain := value_plain documented precise.readsBack
    have oneLine : '\n' ∉ (target.value toRfc3339).toList := fun member => (plain _ member).2.2 rfl
    have again := (conf_twice_iff toRfc3339 existing oneLine).mp twice
    have lines := conf_lines toRfc3339 existing oneLine
    rw [again] at lines
    have unset := (settings_counted_iff documented plain lines).mp precise.counted
    have same : keptLines existing = otherLines reads existing := by
      rw [← precise.others]
      exact (other_lines_conf documented plain lines unset).symm
    refine ⟨?_, plain⟩
    intro line member
    constructor
    · have kept : line ∈ keptLines existing ↔ isManaged line = false := by
        simp [keptLines, member]
      have other : line ∈ otherLines reads existing ↔ setsManaged reads line = false := by
        simp [otherLines, member]
      rw [same, other] at kept
      cases managed : isManaged line with
      | false => exact (kept.mpr managed).symm
      | true =>
          by_contra unequal
          have isUnset : setsManaged reads line = false := by simpa using Ne.symm unequal
          rw [kept.mp isUnset] at managed
          cases managed
    · intro unmanaged
      have kept : line ∈ keptLines existing := by
        simp [keptLines, member, unmanaged]
      rw [← List.map_id (keptLines existing), List.map_map] at again
      exact List.map_inj_left.mp again line kept
  · intro both
    obtain ⟨fits, plain⟩ := both
    have oneLine : '\n' ∉ (target.value toRfc3339).toList := fun member => (plain _ member).2.2 rfl
    have stays : ∀ line ∈ keptLines existing, isManaged line = setsManaged reads line ∧
        isManaged line = false ∧ Text.readLine line = line := by
      intro line member
      have fit := fits line (List.mem_of_mem_filter member)
      have unmanaged : isManaged line = false := by simpa using List.of_mem_filter member
      exact ⟨fit.1, unmanaged, fit.2 unmanaged⟩
    have again : (keptLines existing).map Text.readLine = keptLines existing := by
      have eachSame := List.map_congr_left fun line member => (stays line member).2.2
      rw [eachSame]
      exact List.map_id' _
    have lines := conf_lines toRfc3339 existing oneLine
    rw [again] at lines
    have unset : ∀ line ∈ keptLines existing, setsManaged reads line = false := fun line member =>
      (stays line member).1.symm.trans (stays line member).2.1
    have counted := (settings_counted_iff documented plain lines).mpr unset
    have managed := target_managed target
    have count {key : String} (isKey : key ∈ recoveryManagedKeys) (own : key ≠ target.otherKey) :
        (valuesOf reads key (confFor toRfc3339 existing target)).length = 1 := by
      rw [counted key isKey, if_neg own]
    refine ⟨?_, (conf_twice_iff toRfc3339 existing oneLine).mpr again⟩
    constructor
    · rw [other_lines_conf documented plain lines unset]
      apply List.filter_congr
      intro line member
      rw [(fits line member).1]
    · exact count (by decide) (by cases target <;> simp [RecoveryTarget.otherKey])
    · exact count (by decide) (by cases target <;> simp [RecoveryTarget.otherKey])
    · exact count managed.1 (by cases target <;> simp [RecoveryTarget.key, RecoveryTarget.otherKey])
    · rw [← List.length_eq_zero_iff, counted _ managed.2, if_pos rfl]
    · rw [lines]
      simpa using (new_lines_read documented plain).2.2

end Precise

theorem find_put (name other : String) (entry : Entry) :
    (entries : Entries) → find other (put name entry entries) =
      if name = other then some entry else find other entries
  | .none => by simp [put, find]
  | .more first old rest => by
      have later := find_put name other entry rest
      by_cases same : first = name
      · by_cases this : name = other <;> simp [put, find, same, this]
      · simp only [put, if_neg same, find, later]
        by_cases this : name = other
        · rw [if_pos this, if_neg (this ▸ same), if_pos this]
        · rw [if_neg this, if_neg this]

theorem find_remove {name other : String} (differs : name ≠ other) :
    (entries : Entries) → find other (remove name entries) = find other entries
  | .none => rfl
  | .more first old rest => by
      have later := find_remove differs rest
      by_cases same : first = name
      · simp [remove, find, same, differs, later]
      · simp [remove, find, same, later]

variable {replies : Replies} {entries : Entries}

theorem write_file_made {text name content : String}
    (written : (writeFile text name content entries replies).result = .ok ()) :
    (writeFile text name content entries replies).made = put name (.file content) entries := by
  unfold writeFile at written ⊢
  split at written
  · cases written
  · cases written
  · rfl

theorem read_conf_held {rest : Replies} {existing text : String}
    (held : confIn entries = some existing) (read : readConf entries replies = (.ok text, rest)) :
    text = existing := by
  unfold confIn at held
  unfold readConf at read
  cases found : find "postgresql.auto.conf" entries with
  | none =>
      simp only [found, Option.some.injEq, Prod.mk.injEq, Except.ok.injEq] at held read
      rw [← held, read.1]
  | some entry =>
      cases entry with
      | file content =>
          have same : content = existing := by simpa [found] using held
          cases replies with
          | nil =>
              simp only [found, Prod.mk.injEq, Except.ok.injEq] at read
              rw [← same, read.1]
          | cons reply others =>
              cases reply with
              | done =>
                  simp only [found, Prod.mk.injEq, Except.ok.injEq] at read
                  rw [← same, read.1]
              | refused message left => simp [found] at read
      | directory entries => simp [found] at held
      | link target => simp [found] at held
      | special => simp [found] at held

theorem remove_standby_find (entries : Entries) (replies : Replies) :
    find "postgresql.auto.conf" (removeStandby entries replies) =
      find "postgresql.auto.conf" entries := by
  unfold removeStandby
  split
  · rfl
  · split
    · exact find_remove (by decide) entries
    · rfl
  · split
    · exact find_remove (by decide) entries
    · rfl

variable {Moment : Type}

/-- What a call that goes through makes of the file. -/
theorem write_recovery_config_conf {toRfc3339 : Moment → String} {existing : String}
    {target : RecoveryTarget Moment} (held : confIn entries = some existing)
    (written : (writeRecoveryConfig toRfc3339 target.restorePoint? target.targetTime? entries
      replies).result = .ok ()) :
    confIn (writeRecoveryConfig toRfc3339 target.restorePoint? target.targetTime? entries
      replies).made = some (confFor toRfc3339 existing target) := by
  unfold writeRecoveryConfig at written ⊢
  cases signalled : (writeFile "write recovery.signal failed" "recovery.signal" "" entries
      replies).result with
  | error message => simp [signalled] at written
  | ok made =>
      have isMade := write_file_made signalled
      simp only [signalled] at written ⊢
      have heldThere : confIn (put "recovery.signal" (.file "") entries) = some existing := by
        rw [← held]
        unfold confIn
        rw [find_put, if_neg (by decide)]
      rw [isMade] at written ⊢
      cases read : readConf (put "recovery.signal" (.file "") entries) (writeFile
          "write recovery.signal failed" "recovery.signal" "" entries replies).replies with
      | mk text rest =>
          cases text with
          | error message => simp [read] at written
          | ok text =>
              have same := read_conf_held heldThere read
              simp only [read, same] at written ⊢
              split at written
              · rename_i failed
                rw [failed] at written
                cases written
              · rename_i done
                have isThere := write_file_made done
                unfold confIn
                rw [remove_standby_find, isThere, find_put, if_pos rfl]
                rfl

def alone (content : String) : Entries := .more "postgresql.auto.conf" (.file content) .none

def signalled (content : String) : Entries :=
  .more "postgresql.auto.conf" (.file content) (.more "recovery.signal" (.file "") .none)

theorem alone_written (toRfc3339 : Moment → String) (existing : String)
    (target : RecoveryTarget Moment) :
    writeRecoveryConfig toRfc3339 target.restorePoint? target.targetTime? (alone existing) [] =
      ⟨.ok (), signalled (confFor toRfc3339 existing target), []⟩ := by
  simp [writeRecoveryConfig, writeFile, readConf, removeStandby, find, put, alone, signalled, confFor]

theorem signalled_written (toRfc3339 : Moment → String) (existing : String)
    (target : RecoveryTarget Moment) :
    writeRecoveryConfig toRfc3339 target.restorePoint? target.targetTime? (signalled existing) [] =
      ⟨.ok (), signalled (confFor toRfc3339 existing target), []⟩ := by
  simp [writeRecoveryConfig, writeFile, readConf, removeStandby, find, put, signalled, confFor]

theorem conf_in_signalled (content : String) : confIn (signalled content) = some content := rfl

theorem writes_precisely_iff (reads : String → Option (String × String))
    (toRfc3339 : Moment → String) (existing : String) (target : RecoveryTarget Moment) :
    WritesPrecisely reads toRfc3339 existing target ↔
      Precise reads toRfc3339 existing (confFor toRfc3339 existing target) target ∧
      confFor toRfc3339 (confFor toRfc3339 existing target) target =
        confFor toRfc3339 existing target := by
  constructor
  · intro precisely
    have first := precisely (alone existing) [] rfl
    rw [alone_written] at first
    obtain ⟨after, held, precise, twice⟩ := first rfl
    rw [conf_in_signalled] at held
    have same := Option.some.inj held
    have second := twice []
    rw [signalled_written] at second
    have again := second rfl
    rw [conf_in_signalled, ← same] at again
    rw [← same] at precise
    exact ⟨precise, Option.some.inj again⟩
  · intro both entries replies held written ok
    have heldAfter := write_recovery_config_conf held ok
    refine ⟨confFor toRfc3339 existing target, heldAfter, both.1, ?_⟩
    intro others again okAgain
    rw [write_recovery_config_conf heldAfter okAgain, both.2]

/-- The edit is precise exactly when lines begin with a managed key as they set one, none that stays
ends in a carriage return, and the value of the target is plain. -/
theorem recovery_config_precise_iff {Moment : Type} {toRfc3339 : Moment → String}
    {reads : String → Option (String × String)} (documented : Documented reads) {existing : String}
    {target : RecoveryTarget Moment} : WritesPrecisely reads toRfc3339 existing target ↔
      LinesFit reads existing ∧ Plain (target.value toRfc3339).toList :=
  (writes_precisely_iff reads toRfc3339 existing target).trans (conf_precise_iff documented)

def readQuoted (rest : List Char) : Option String :=
  let body := (rest.drop 3).dropLast
  if rest = ['=', ' ', quote] ++ body ++ [quote] ∧ Plain body then some (String.ofList body) else none

def demoReads (line : String) : Option (String × String) :=
  (Text.splitOnce ' ' line).bind fun parts =>
    (readQuoted parts.2.toList).map fun value => (Text.toAsciiLowercase parts.1, value)

theorem read_quoted_iff (rest : List Char) (value : String) : readQuoted rest = some value ↔
    rest = ['=', ' ', quote] ++ value.toList ++ [quote] ∧ Plain value.toList := by
  unfold readQuoted
  constructor
  · intro read
    simp only at read
    split_ifs at read with fits
    have same := Option.some.inj read
    rw [← same, String.toList_ofList]
    exact fits
  · intro fits
    obtain ⟨whole, plain⟩ := fits
    have body : (rest.drop 3).dropLast = value.toList := by
      rw [whole]
      simp
    simp only [body]
    rw [if_pos ⟨whole, plain⟩, String.ofList_toList]

theorem demo_reads_iff (line name value : String) : demoReads line = some (name, value) ↔
    ∃ written, line = setting written value ∧ ' ' ∉ written.toList ∧
      name = Text.toAsciiLowercase written ∧ Plain value.toList := by
  unfold demoReads
  constructor
  · intro read
    obtain ⟨parts, split, rest⟩ := Option.bind_eq_some_iff.mp read
    obtain ⟨value', quoted, same⟩ := Option.map_eq_some_iff.mp rest
    have pair := Prod.mk.inj same
    rw [pair.2] at quoted
    have cut := (Text.split_once_iff _ _ _ _).mp split
    have fits := (read_quoted_iff _ _).mp quoted
    refine ⟨parts.1, ?_, cut.2, pair.1.symm, fits.2⟩
    apply String.toList_injective
    rw [cut.1, fits.1]
    unfold setting
    simp [quote]
  · intro found
    obtain ⟨written, whole, noBlank, lower, plain⟩ := found
    have split : Text.splitOnce ' ' line = some (written, "= '" ++ value ++ "'") := by
      apply (Text.split_once_iff _ _ _ _).mpr
      refine ⟨?_, noBlank⟩
      rw [whole]
      unfold setting
      simp
    have quoted : readQuoted ("= '" ++ value ++ "'").toList = some value := by
      rw [read_quoted_iff]
      refine ⟨?_, plain⟩
      simp [quote]
    rw [split, Option.bind_some, quoted, lower]
    rfl

theorem managed_key_lower : ∀ key ∈ recoveryManagedKeys,
    Text.toAsciiLowercase key = key ∧ ' ' ∉ key.toList := by decide

theorem plain_unquotes {value : List Char} (plain : Plain value) : Unquotes value value := by
  induction value with
  | nil => exact .nil
  | cons ch rest ih =>
      have first := plain ch List.mem_cons_self
      have others : Plain rest := fun other member => plain other (List.mem_cons_of_mem ch member)
      exact .plain ch first.1 first.2.1 (ih others)

theorem demo_documented : Documented demoReads := by
  constructor
  · intro key managed value plain
    have lower := managed_key_lower key managed
    rw [demo_reads_iff]
    exact ⟨key, rfl, lower.2, lower.1.symm, plain⟩
  · intro key managed rest name value read
    have lower := managed_key_lower key managed
    obtain ⟨written, whole, noBlank, isName, plain⟩ := (demo_reads_iff _ _ _).mp read
    have first : Text.splitOnce ' ' (key ++ " = '" ++ rest) = some (key, "= '" ++ rest) := by
      apply (Text.split_once_iff _ _ _ _).mpr
      refine ⟨?_, lower.2⟩
      simp
    have second : Text.splitOnce ' ' (key ++ " = '" ++ rest) =
        some (written, "= '" ++ value ++ "'") := by
      apply (Text.split_once_iff _ _ _ _).mpr
      refine ⟨?_, noBlank⟩
      rw [whole]
      unfold setting
      simp
    have same := Prod.mk.inj (Option.some.inj (first.symm.trans second))
    have tail := congrArg String.toList same.2
    rw [isName, ← same.1]
    refine ⟨lower.1, value.toList, [], ?_, plain_unquotes plain⟩
    simpa [quote] using tail
  · intro line name value read
    obtain ⟨written, whole, -⟩ := (demo_reads_iff _ _ _).mp read
    rw [whole]
    unfold setting
    simp only [String.length_append]
    have quotes : " = '".length = 4 ∧ "'".length = 1 := ⟨rfl, rfl⟩
    omega

/-- A file with another setting, and one of an earlier recovery. -/
theorem demo_recovery_config_precise :
    WritesPrecisely demoReads Text.toRfc3339 "work_mem = '4MB'\nrestore_command = 'old'\n"
      (.restorePoint "before") ↔
    LinesFit demoReads "work_mem = '4MB'\nrestore_command = 'old'\n" ∧ Plain "before".toList :=
  recovery_config_precise_iff demo_documented

theorem timeline_kept : otherLines demoReads "recovery_target_timeline = 'latest'\n" =
    ["recovery_target_timeline = 'latest'"] := by decide

/-- The line begins with the text of a managed key and sets another one. -/
theorem longer_key_dropped : ¬WritesPrecisely demoReads Text.toRfc3339
    "recovery_target_timeline = 'latest'\n" (.restorePoint "before") := by
  intro precisely
  have precise := ((writes_precisely_iff _ _ _ _).mp precisely).1
  have plain : Plain (RecoveryTarget.value Text.toRfc3339 (.restorePoint "before")).toList := by decide
  have oneLine := fun member => (plain _ member).2.2 rfl
  have none : keptLines "recovery_target_timeline = 'latest'\n" = [] := by decide
  have lines := conf_lines Text.toRfc3339 "recovery_target_timeline = 'latest'\n" oneLine
  rw [none, List.map_nil] at lines
  have others := precise.others
  rw [other_lines_conf demo_documented plain lines (by simp), timeline_kept] at others
  cases others

end Containr.Managed.Pitr
