import Containr.Trimming

/-!
# Repeated texts at the ends

`trim_start_matches` and `trim_end_matches` take a text away as often as it stands at one end.
`Leading` and `Trailing` say so without a loop; `Peels` does it for several texts in turn.
-/

namespace Containr.Text

/-- `rest` is what follows all repetitions of `front`. -/
inductive Leading (front : String) : String → String → Prop where
  | done {text : String} (other : startsWith text front = false) : Leading front text text
  | again {text rest : String} (more : Leading front text rest) : Leading front (front ++ text) rest

section Front

variable {front : String}

theorem drop_fuel (nonempty : front ≠ "") {fuel more : Nat} {chars : List Char}
    (enough : chars.length ≤ fuel) (plenty : fuel ≤ more) :
    trimStartMatches.drop front more chars = trimStartMatches.drop front fuel chars := by
  have long : 0 < front.length := by
    rw [← String.length_toList]
    apply List.length_pos_iff.mpr
    intro nothing
    exact nonempty (String.toList_inj.mp nothing)
  induction fuel generalizing more chars with
  | zero =>
      have nothing : chars = [] := List.length_eq_zero_iff.mp (by omega)
      have other : front.toList.isPrefixOf [] = false := by
        cases shape : front.toList with
        | nil => exact absurd (String.toList_inj.mp shape) nonempty
        | cons ch rest => rfl
      cases more with
      | zero => rfl
      | succ more =>
          unfold trimStartMatches.drop
          rw [nothing]
          simp [other]
  | succ fuel ih =>
      cases more with
      | zero => omega
      | succ more =>
          unfold trimStartMatches.drop
          split_ifs with starts
          · apply ih
            · rw [List.length_drop]
              omega
            · omega
          · rfl

theorem trim_start_matches_front (nonempty : front ≠ "") (rest : String) :
    trimStartMatches (front ++ rest) front = trimStartMatches rest front := by
  have isEmpty : front.isEmpty = false := by simpa using nonempty
  have starts : front.toList.isPrefixOf (front.toList ++ rest.toList) = true := by simp
  have chars : (front ++ rest).toList = front.toList ++ rest.toList := String.toList_append
  have dropped : (front.toList ++ rest.toList).drop front.length = rest.toList := by
    rw [← String.length_toList, List.drop_left]
  have long : 0 < front.length := by
    rw [← String.length_toList]
    apply List.length_pos_iff.mpr
    intro nothing
    exact nonempty (String.toList_inj.mp nothing)
  obtain ⟨fuel, size⟩ : ∃ fuel, (front ++ rest).length = fuel + 1 :=
    ⟨(front ++ rest).length - 1, by rw [String.length_append]; omega⟩
  have plenty : rest.length ≤ fuel := by
    rw [String.length_append] at size
    omega
  unfold trimStartMatches
  rw [size, trimStartMatches.drop, chars]
  simp only [isEmpty, starts, Bool.not_false, Bool.and_self, if_true, dropped]
  rw [drop_fuel nonempty (le_of_eq String.length_toList) plenty]

theorem leading_iff (nonempty : front ≠ "") {text rest : String} :
    Leading front text rest ↔ trimStartMatches text front = rest := by
  constructor
  · intro leading
    induction leading with
    | done other => exact trim_start_matches_other other
    | again more ih =>
        rw [trim_start_matches_front nonempty]
        exact ih
  · intro trimmed
    rw [← trimmed]
    clear trimmed
    induction size : text.length using Nat.strongRecOn generalizing text with
    | ind count ih =>
        cases starts : startsWith text front with
        | false =>
            rw [trim_start_matches_other starts]
            exact .done starts
        | true =>
            obtain ⟨behind, whole⟩ := starts_with_iff.mp starts
            have shorter : behind.length < count := by
              have positive : front.length ≠ 0 := by simpa using nonempty
              rw [whole, String.length_append] at size
              omega
            rw [whole, trim_start_matches_front nonempty]
            exact .again (ih behind.length shorter rfl)

end Front

/-- `rest` is what is left when the texts are taken away in turn. -/
inductive Peels : List String → String → String → Prop where
  | nil (text : String) : Peels [] text text
  | cons {front : String} {fronts : List String} {text middle rest : String}
      (first : Leading front text middle) (others : Peels fronts middle rest) :
      Peels (front :: fronts) text rest

variable {fronts : List String} {rest text : String}

variable {front : String}

theorem Leading.suffix (leading : Leading front text rest) : rest.toList <:+ text.toList := by
  induction leading with
  | done other => exact List.suffix_rfl
  | again more ih =>
      rw [String.toList_append]
      exact ih.trans (List.suffix_append _ _)

theorem Leading.starts (leading : Leading front text rest) : startsWith rest front = false := by
  induction leading with
  | done other => exact other
  | again more ih => exact ih

theorem Peels.suffix (peels : Peels fronts text rest) : rest.toList <:+ text.toList := by
  induction peels with
  | nil text => exact List.suffix_rfl
  | cons first others ih => exact ih.trans first.suffix

/-- Where nothing is taken away, none of the texts stands in front. -/
theorem Peels.whole (peels : Peels fronts text rest)
    (long : text.toList.length ≤ rest.toList.length) :
    rest = text ∧ ∀ front ∈ fronts, startsWith text front = false := by
  induction peels with
  | nil text => exact ⟨rfl, fun front member => absurd member List.not_mem_nil⟩
  | @cons front fronts text middle rest first others ih =>
      have inner := others.suffix.length_le
      have same : middle = text :=
        String.toList_inj.mp (first.suffix.eq_of_length_le (by omega))
      rw [same] at ih first
      have later := ih long
      constructor
      · exact later.1
      · intro other member
        rcases List.mem_cons.mp member with isFirst | isLater
        · rw [isFirst]
          exact first.starts
        · exact later.2 other isLater

theorem Peels.none (others : ∀ front ∈ fronts, startsWith text front = false) :
    Peels fronts text text := by
  induction fronts with
  | nil => exact .nil text
  | cons front fronts ih =>
      exact .cons (.done (others front List.mem_cons_self))
        (ih fun front member => others front (List.mem_cons_of_mem _ member))

theorem Leading.append {more : String} (leading : Leading front text rest)
    (other : startsWith (rest ++ more) front = false) :
    Leading front (text ++ more) (rest ++ more) := by
  induction leading with
  | done _ => exact .done other
  | again further ih =>
      rw [String.append_assoc]
      exact .again (ih other)

theorem Peels.append {more : List String} {middle : String} (peels : Peels fronts text middle)
    (others : Peels more middle rest) : Peels (fronts ++ more) text rest := by
  induction peels with
  | nil text => exact others
  | cons first _ ih => exact .cons first (ih others)

theorem Peels.split {more : List String} (peels : Peels (fronts ++ more) text rest) :
    ∃ middle, Peels fronts text middle ∧ Peels more middle rest := by
  induction fronts generalizing text with
  | nil => exact ⟨text, .nil text, peels⟩
  | cons front fronts ih =>
      cases peels with
      | cons first others =>
          obtain ⟨middle, front, back⟩ := ih others
          exact ⟨middle, .cons first front, back⟩

/-- `rest` with repetitions of the texts in front of it, those of an earlier text first. -/
inductive Fronted : List String → String → String → Prop where
  | done {fronts : List String} (text : String) : Fronted fronts text text
  | again {front : String} {fronts : List String} {text rest : String}
      (more : Fronted (front :: fronts) text rest) : Fronted (front :: fronts) (front ++ text) rest
  | next {front : String} {fronts : List String} {text rest : String}
      (more : Fronted fronts text rest) : Fronted (front :: fronts) text rest

theorem Leading.fronted {middle : String} (leading : Leading front text middle)
    (others : Fronted fronts middle rest) : Fronted (front :: fronts) text rest := by
  induction leading with
  | done other => exact .next others
  | again more ih => exact .again (ih others)

theorem Peels.fronted (peels : Peels fronts text rest) : Fronted fronts text rest := by
  induction peels with
  | nil text => exact .done text
  | cons first others ih => exact first.fronted ih

theorem Fronted.starts (fronted : Fronted fronts text rest) :
    text = rest ∨ ∃ front ∈ fronts, ∃ more, text = front ++ more := by
  induction fronted with
  | done text => exact Or.inl rfl
  | again more ih => exact Or.inr ⟨_, List.mem_cons_self, _, rfl⟩
  | next more ih =>
      rcases ih with same | ⟨front, member, found⟩
      · exact Or.inl same
      · exact Or.inr ⟨front, List.mem_cons_of_mem _ member, found⟩

theorem Leading.behind (nonempty : front ≠ "") (leading : Leading front (front ++ text) rest) :
    Leading front text rest := by
  have trimmed := (leading_iff nonempty).mp leading
  rw [trim_start_matches_front nonempty] at trimmed
  exact (leading_iff nonempty).mpr trimmed

theorem Leading.of_other (leading : Leading front text rest) (other : startsWith text front = false)
    : rest = text := by
  cases leading with
  | done _ => rfl
  | again more =>
      rw [starts_with_iff.mpr ⟨_, rfl⟩] at other
      cases other

/-- What is taken away of the text is what stands in front, and then some of what follows. -/
theorem Fronted.peels (nonempty : ∀ front ∈ fronts, front ≠ "")
    (apart : fronts.Pairwise fun front later => ∀ more, startsWith (later ++ more) front = false)
    {body : String} (fronted : Fronted fronts text rest) (peels : Peels fronts text body) :
    ∃ later, later <:+ fronts ∧ Peels later rest body := by
  induction fronted with
  | done text => exact ⟨_, List.suffix_rfl, peels⟩
  | again more ih =>
      apply ih nonempty apart
      cases peels with
      | cons first others =>
          exact .cons (first.behind (nonempty _ List.mem_cons_self)) others
  | next more ih =>
      cases peels with
      | cons first others =>
          rcases more.starts with same | ⟨later, member, behind, whole⟩
          · rw [same] at first
            exact ⟨_, List.suffix_rfl, .cons first others⟩
          · have other := (List.pairwise_cons.mp apart).1 later member behind
            rw [← whole] at other
            rw [first.of_other other] at others
            obtain ⟨last, within, found⟩ := ih
              (fun front inside => nonempty front (List.mem_cons_of_mem _ inside))
              (List.pairwise_cons.mp apart).2 others
            exact ⟨last, within.trans (List.suffix_cons _ _), found⟩

/-- `rest` is what precedes all repetitions of `back`. -/
inductive Trailing (back : String) : String → String → Prop where
  | done {text : String} (other : endsWith text back = false) : Trailing back text text
  | again {text rest : String} (more : Trailing back text rest) : Trailing back (text ++ back) rest

section Back

def turned (text : String) : String := String.ofList text.toList.reverse

@[simp] theorem turned_append (text more : String) :
    turned (text ++ more) = turned more ++ turned text := by
  simp [turned, String.ofList_append]

variable {text : String}

theorem ends_with_turned (text back : String) :
    endsWith text back = startsWith (turned text) (turned back) := by
  unfold endsWith startsWith turned
  rw [String.toList_ofList, String.toList_ofList]

theorem ends_with_append (text back : String) : endsWith (text ++ back) back = true := by
  rw [ends_with_turned, turned_append]
  exact starts_with_iff.mpr ⟨_, rfl⟩

variable {back : String}

variable {rest : String}

theorem Trailing.of_other (trailing : Trailing back text rest) (other : endsWith text back = false)
    : rest = text := by
  cases trailing with
  | done _ => rfl
  | again more =>
      rw [ends_with_append] at other
      cases other

theorem Trailing.ends (trailing : Trailing back text rest) : endsWith rest back = false := by
  induction trailing with
  | done other => exact other
  | again more ih => exact ih

/-- A text up to a mark that the taken text does not have stays. -/
theorem Trailing.keeps {back text rest : String} (trailing : Trailing back text rest) {mark : Char}
    (absent : mark ∉ back.toList) {front : List Char}
    (inside : front ++ [mark] <+: text.toList) : front ++ [mark] <+: rest.toList := by
  induction trailing with
  | done other => exact inside
  | again more ih =>
      apply ih
      rw [String.toList_append] at inside
      rcases List.prefix_or_prefix_of_prefix inside (List.prefix_append _ _) with within | within
      · exact within
      · rcases List.prefix_concat_iff.mp within with same | shorter
        · simp [same]
        · exfalso
          obtain ⟨others, whole⟩ := shorter
          rw [← whole, List.append_assoc] at inside
          have part := (List.prefix_append_right_inj _).mp inside
          exact absent (part.subset (by simp))

end Back

end Containr.Text
