import Containr.Effect.Program
import Mathlib.Data.List.Forall2
import Mathlib.Data.List.Induction
import Mathlib.Data.List.Nodup

/-!
# Loops that push

A fallible loop whose rounds each append one output. Every output was pushed onto those
before it; and items made back from the outputs push the same outputs again, if each of
them does so in its place. Item by item the outputs match the items.
-/

namespace Containr.Pushes

open Containr.Effect

theorem refused_iff {Error Value : Type} {condition : Prop} [Decidable condition] {error : Error}
    {next : Unit → Except Error Value} {rest : Except Error Value} {result : Value} :
    (if condition then (throw error : Except Error Unit) >>= next else rest) = .ok result ↔
      ¬condition ∧ rest = .ok result := by
  by_cases holds : condition
  · rw [if_pos holds]
    exact ⟨nofun, fun both => absurd holds both.1⟩
  · rw [if_neg holds]
    exact ⟨fun accepted => ⟨holds, accepted⟩, And.right⟩

theorem refused_last_iff {Error : Type} {condition : Prop} [Decidable condition] {error : Error} :
    (if condition then (throw error : Except Error Unit) else pure ()) = .ok () ↔ ¬condition := by
  by_cases holds : condition
  · rw [if_pos holds]
    exact ⟨nofun, fun not => absurd holds not⟩
  · rw [if_neg holds]
    exact ⟨fun _ => holds, fun _ => rfl⟩

theorem except_bind_iff {Error Value Other : Type} {first : Except Error Value}
    {next : Value → Except Error Other} {result : Other} : (first >>= next) = .ok result ↔
      ∃ value, first = .ok value ∧ next value = .ok result := by
  refine ⟨except_bind_ok, fun found => ?_⟩
  obtain ⟨value, same, accepted⟩ := found
  rw [same]
  exact accepted

theorem returned_iff {Error Value : Type} {value result : Value} :
    (pure value : Except Error Value) = .ok result ↔ result = value := by
  constructor
  · intro same
    exact (Except.ok.inj same).symm
  · intro same
    rw [same]
    rfl

theorem any_key_iff {Row Key : Type} [DecidableEq Key] {key : Row → Key} {wanted : Key}
    {rows : List Row} : (rows.any fun row => decide (key row = wanted)) = true ↔
      wanted ∈ rows.map key := by
  simp

variable {Item Out Error : Type} {push : List Out → Item → Except Error (List Out)}

def Appends (push : List Out → Item → Except Error (List Out)) : Prop :=
  ∀ outs item result, push outs item = .ok result → ∃ out, result = outs ++ [out]

def Pushed (push : List Out → Item → Except Error (List Out)) (items : List Item)
    (outs : List Out) : Prop :=
  ∀ before out after, outs = before ++ out :: after →
    ∃ item ∈ items, push before item = .ok (before ++ [out])

variable {items : List Item}

theorem foldlM_pushed (appends : Appends push) {done result : List Out}
    (accepted : items.foldlM push done = .ok result) :
    ∃ outs, result = done ++ outs ∧ outs.length = items.length ∧
      ∀ before out after, outs = before ++ out :: after →
        ∃ item ∈ items, push (done ++ before) item = .ok (done ++ before ++ [out]) := by
  induction items generalizing done with
  | nil =>
      cases accepted
      refine ⟨[], by simp, rfl, ?_⟩
      intro before out after split
      simp at split
  | cons item items ih =>
      rw [List.foldlM_cons] at accepted
      obtain ⟨next, pushed, rest⟩ := except_bind_ok accepted
      obtain ⟨out, rfl⟩ := appends done item next pushed
      obtain ⟨outs, whole, length, each⟩ := ih rest
      refine ⟨out :: outs, by simp [whole], by simp [length], ?_⟩
      intro before other after split
      cases before with
      | nil =>
          have first : out = other := (List.cons.inj split).1
          refine ⟨item, List.mem_cons_self, ?_⟩
          rw [List.append_nil, ← first]
          exact pushed
      | cons first before =>
          obtain ⟨same, later⟩ := List.cons.inj split
          obtain ⟨from_, member, pushedLater⟩ := each before other after later
          refine ⟨from_, List.mem_cons_of_mem _ member, ?_⟩
          rw [← same]
          simpa using pushedLater

theorem pushed_of_foldlM (appends : Appends push) {result : List Out}
    (accepted : items.foldlM push [] = .ok result) :
    Pushed push items result ∧ result.length = items.length := by
  obtain ⟨outs, same, length, each⟩ := foldlM_pushed appends accepted
  rw [List.nil_append] at same
  rw [same]
  exact ⟨fun before out after split => by simpa using each before out after split, length⟩

variable {outs : List Out}

/-- Outputs whose keys were not among the earlier ones have distinct keys. -/
theorem nodup_of_fresh {Key : Type} {key : Out → Key}
    (fresh : ∀ before out after, outs = before ++ out :: after → key out ∉ before.map key) :
    (outs.map key).Nodup := by
  induction outs using List.reverseRecOn with
  | nil => exact List.nodup_nil
  | append_singleton outs out ih =>
      rw [List.map_append, List.map_singleton, List.nodup_append]
      refine ⟨?_, List.nodup_singleton _, ?_⟩
      · apply ih
        intro before other after split
        apply fresh before other (after ++ [out])
        rw [split, List.append_assoc, List.cons_append]
      · intro earlier member last isLast same
        rw [List.mem_singleton.mp isLast] at same
        exact fresh outs out [] rfl (same ▸ member)

theorem nodup_snoc {out : Out} (distinct : outs.Nodup) (fresh : out ∉ outs) :
    (outs ++ [out]).Nodup := by
  apply List.Nodup.append distinct (List.nodup_singleton _)
  intro other member last
  rw [List.mem_singleton.mp last] at member
  exact fresh member

variable {round : List Out → Item → List Out}

theorem foldl_nodup (keeps : ∀ outs item, outs.Nodup → (round outs item).Nodup) {done : List Out}
    (items : List Item) (distinct : done.Nodup) : (items.foldl round done).Nodup := by
  induction items generalizing done with
  | nil => exact distinct
  | cons item items ih => exact ih (keeps done item distinct)

/-- Where every new item is appended as it is, a list without repetition is. -/
theorem foldl_all {round : List Out → Out → List Out} {items done : List Out}
    (pushes : ∀ outs, ∀ item ∈ items, item ∉ outs → round outs item = outs ++ [item])
    (distinct : (done ++ items).Nodup) : items.foldl round done = done ++ items := by
  induction items generalizing done with
  | nil => simp
  | cons item items ih =>
      have fresh : item ∉ done := fun member =>
        (List.nodup_append.mp distinct).2.2 item member item List.mem_cons_self rfl
      rw [List.foldl_cons, pushes done item List.mem_cons_self fresh]
      have split : (done ++ [item] ++ items).Nodup := by simpa using distinct
      have rest := ih (fun outs other member => pushes outs other (List.mem_cons_of_mem _ member))
        split
      simpa using rest

def AppendsValue (round : List Out → Item → List Out) (value : Item → Option Out) : Prop :=
  ∀ outs item, round outs item = outs ∨
    ∃ out, value item = some out ∧ round outs item = outs ++ [out]

theorem foldl_extends {value : Item → Option Out} (appends : AppendsValue round value)
    (items : List Item) (done : List Out) :
    ∃ outs, items.foldl round done = done ++ outs ∧ outs.length ≤ items.length := by
  induction items generalizing done with
  | nil => exact ⟨[], by simp, Nat.le_refl _⟩
  | cons item items ih =>
      obtain ⟨outs, whole, short⟩ := ih (round done item)
      rcases appends done item with same | ⟨out, -, longer⟩
      · refine ⟨outs, ?_, by simp; omega⟩
        rw [List.foldl_cons, whole, same]
      · refine ⟨out :: outs, ?_, by simp; omega⟩
        rw [List.foldl_cons, whole, longer, List.append_assoc]
        rfl

/-- A list that comes out as it went in stands for itself, item by item. -/
theorem foldl_fixed {round : List Out → Out → List Out} {value : Out → Option Out}
    (appends : AppendsValue round value) {items done : List Out}
    (fixed : items.foldl round done = done ++ items) : ∀ item ∈ items, value item = some item := by
  induction items generalizing done with
  | nil => exact fun _ member => absurd member List.not_mem_nil
  | cons item items ih =>
      rw [List.foldl_cons] at fixed
      obtain ⟨outs, whole, short⟩ := foldl_extends appends items (round done item)
      rw [fixed] at whole
      rcases appends done item with same | ⟨out, isValue, longer⟩
      · rw [same] at whole
        have length := congrArg List.length (List.append_cancel_left whole)
        rw [List.length_cons] at length
        omega
      · rw [longer, List.append_assoc] at whole
        obtain ⟨sameOut, -⟩ := List.cons.inj (List.append_cancel_left whole)
        rw [longer, ← sameOut] at fixed
        have rest : items.foldl round (done ++ [item]) = done ++ [item] ++ items := by
          simpa using fixed
        intro other member
        rcases List.mem_cons.mp member with isFirst | later
        · rw [isFirst, isValue, sameOut]
        · exact ih rest other later

/-- Items that stand for the outputs, each pushing its own in its place, push them all. -/
theorem foldlM_follows {stands : Out → Item → Prop} {outs done : List Out} {items : List Item}
    (matched : List.Forall₂ stands outs items)
    (each : ∀ before out after item, outs = before ++ out :: after → stands out item →
      push (done ++ before) item = .ok (done ++ before ++ [out])) :
    items.foldlM push done = .ok (done ++ outs) := by
  induction matched generalizing done with
  | nil => simp [pure, Except.pure]
  | @cons out item outs items fits matched ih =>
      have first : push done item = .ok (done ++ [out]) := by
        simpa using each [] out outs item rfl fits
      have rest : items.foldlM push (done ++ [out]) = .ok (done ++ [out] ++ outs) := by
        apply ih
        intro before other after later split fitsLater
        simpa using each (out :: before) other after later (by rw [split, List.cons_append]) fitsLater
      rw [List.foldlM_cons, first]
      rw [List.append_assoc] at rest
      exact rest

theorem foldlM_each {back : Out → Item} {outs done : List Out}
    (each : ∀ before out after, outs = before ++ out :: after →
      push (done ++ before) (back out) = .ok (done ++ before ++ [out])) :
    (outs.map back).foldlM push done = .ok (done ++ outs) := by
  have matched : List.Forall₂ (fun out item => item = back out) outs (outs.map back) := by
    rw [List.forall₂_map_right_iff, List.forall₂_same]
    exact fun _ _ => rfl
  apply foldlM_follows matched
  intro before out after item split same
  rw [same]
  exact each before out after split

/-- The outputs of the loop, made into items again, give the same outputs. -/
theorem foldlM_again {Other : Type} {again : List Out → Other → Except Error (List Out)}
    {back : Out → Other} (pushed : Pushed push items outs)
    (returns : ∀ before out after item, outs = before ++ out :: after →
      push before item = .ok (before ++ [out]) → again before (back out) = .ok (before ++ [out])) :
    (outs.map back).foldlM again [] = .ok outs := by
  apply foldlM_each
  intro before out after split
  obtain ⟨item, -, accepted⟩ := pushed before out after split
  exact returns before out after item split accepted

section Matching

variable {Left Right : Type} {relation : Left → Right → Prop} {lefts : List Left}
  {rights : List Right}

theorem matched_left (matched : List.Forall₂ relation lefts rights) {left : Left}
    (member : left ∈ lefts) : ∃ right ∈ rights, relation left right := by
  induction matched with
  | nil => exact absurd member List.not_mem_nil
  | cons first rest ih =>
      rcases List.mem_cons.mp member with rfl | later
      · exact ⟨_, List.mem_cons_self, first⟩
      · obtain ⟨right, inRest, holds⟩ := ih later
        exact ⟨right, List.mem_cons_of_mem _ inRest, holds⟩

theorem matched_right (matched : List.Forall₂ relation lefts rights) {right : Right}
    (member : right ∈ rights) : ∃ left ∈ lefts, relation left right := by
  induction matched with
  | nil => exact absurd member List.not_mem_nil
  | cons first rest ih =>
      rcases List.mem_cons.mp member with rfl | later
      · exact ⟨_, List.mem_cons_self, first⟩
      · obtain ⟨left, inRest, holds⟩ := ih later
        exact ⟨left, List.mem_cons_of_mem _ inRest, holds⟩

theorem matched_keys {Key : Type} {key : Left → Key} {keyRight : Right → Key}
    (matched : List.Forall₂ relation lefts rights)
    (same : ∀ left right, relation left right → keyRight right = key left) :
    rights.map keyRight = lefts.map key := by
  induction matched with
  | nil => rfl
  | cons first rest ih => simp [same _ _ first, ih]

/-- Where each round appends an output that matches its item, the whole loop does. -/
theorem foldlM_matched {matches_ : Item → Out → Prop}
    (appends : ∀ outs item result, push outs item = .ok result →
      ∃ out, matches_ item out ∧ result = outs ++ [out])
    {items : List Item} {done result : List Out} (accepted : items.foldlM push done = .ok result) :
    ∃ outs, List.Forall₂ matches_ items outs ∧ result = done ++ outs := by
  induction items generalizing done with
  | nil =>
      cases accepted
      exact ⟨[], .nil, by simp⟩
  | cons item items ih =>
      rw [List.foldlM_cons] at accepted
      obtain ⟨next, pushed, rest⟩ := except_bind_ok accepted
      obtain ⟨out, fits, longer⟩ := appends done item next pushed
      obtain ⟨outs, matched, whole⟩ := ih rest
      refine ⟨out :: outs, .cons fits matched, ?_⟩
      rw [whole, longer, List.append_assoc]
      rfl

end Matching

end Containr.Pushes
