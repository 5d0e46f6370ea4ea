import Mathlib.Data.List.Nodup
import Mathlib.Logic.Function.Basic

/-!
# Functions patched at some slots

A store of contents is a function of its slots. After some writes it differs from what it was
at the patched slots at most. The patches say which slots these are and what stands there; a
slot that gets its first content back is no longer patched.
-/

namespace Containr.Patches

variable {Slot Content : Type}

structure Patched (before now : Slot → Content) (patches : List (Slot × Content)) : Prop where
  apart : (patches.map Prod.fst).Nodup
  written : ∀ patch ∈ patches, now patch.1 = patch.2
  kept : ∀ slot, slot ∉ patches.map Prod.fst → now slot = before slot

def relocate [DecidableEq Slot] (nothing : Content) (source target : Slot)
    (now : Slot → Content) : Slot → Content :=
  Function.update (Function.update now target (now source)) source nothing

namespace Patched

variable {before now : Slot → Content} {patches others : List (Slot × Content)}

theorem unpatched (before : Slot → Content) : Patched before before [] where
  apart := List.nodup_nil
  written _ member := absurd member List.not_mem_nil
  kept _ _ := rfl

theorem perm (patched : Patched before now patches) (same : patches.Perm others) :
    Patched before now others where
  apart := (same.map Prod.fst).nodup_iff.mp patched.apart
  written patch member := patched.written patch (same.mem_iff.mpr member)
  kept slot outside := patched.kept slot fun member =>
    outside ((same.map Prod.fst).mem_iff.mp member)

/-- Nothing has changed exactly when each patch repeats what it covers. -/
theorem same_iff (patched : Patched before now patches) :
    (∀ slot, now slot = before slot) ↔ ∀ patch ∈ patches, patch.2 = before patch.1 := by
  constructor
  · intro same patch member
    rw [← patched.written patch member]
    exact same patch.1
  · intro repeats slot
    by_cases covered : slot ∈ patches.map Prod.fst
    · obtain ⟨patch, member, isSlot⟩ := List.mem_map.mp covered
      rw [← isSlot, patched.written patch member]
      exact repeats patch member
    · exact patched.kept slot covered

variable [DecidableEq Slot]

theorem add (patched : Patched before now patches) {slot : Slot} (content : Content)
    (outside : slot ∉ patches.map Prod.fst) :
    Patched before (Function.update now slot content) ((slot, content) :: patches) where
  apart := List.nodup_cons.mpr ⟨outside, patched.apart⟩
  written patch member := by
    rcases List.mem_cons.mp member with isNew | old
    · rw [isNew]
      exact Function.update_self slot content now
    · have different : patch.1 ≠ slot := by
        intro same
        apply outside
        rw [← same]
        exact List.mem_map_of_mem old
      rw [Function.update_of_ne different]
      exact patched.written patch old
  kept other outsideAll := by
    rw [List.map_cons, List.mem_cons, not_or] at outsideAll
    rw [Function.update_of_ne outsideAll.1]
    exact patched.kept other outsideAll.2

theorem remove {slot : Slot} {content : Content}
    (patched : Patched before now ((slot, content) :: patches)) :
    Patched before (Function.update now slot (before slot)) patches := by
  have outside : slot ∉ patches.map Prod.fst := (List.nodup_cons.mp patched.apart).1
  constructor
  · exact (List.nodup_cons.mp patched.apart).2
  · intro patch member
    have different : patch.1 ≠ slot := by
      intro same
      apply outside
      rw [← same]
      exact List.mem_map_of_mem member
    rw [Function.update_of_ne different]
    exact patched.written patch (List.mem_cons_of_mem _ member)
  · intro other uncovered
    by_cases same : other = slot
    · rw [same]
      exact Function.update_self slot (before slot) now
    · rw [Function.update_of_ne same]
      apply patched.kept other
      rw [List.map_cons, List.mem_cons, not_or]
      exact ⟨same, uncovered⟩

theorem relocated (patched : Patched before now patches) (nothing : Content) {source target : Slot}
    (different : source ≠ target) (sourceOutside : source ∉ patches.map Prod.fst)
    (targetOutside : target ∉ patches.map Prod.fst) :
    Patched before (relocate nothing source target now)
      ((source, nothing) :: (target, before source) :: patches) := by
  have untouched : now source = before source := patched.kept source sourceOutside
  unfold relocate
  rw [untouched]
  apply (patched.add (before source) targetOutside).add nothing
  rw [List.map_cons, List.mem_cons, not_or]
  exact ⟨different, sourceOutside⟩

/-- Moving back what had gone to an empty slot. -/
theorem restored {nothing : Content} {source target : Slot}
    (patched : Patched before now ((source, nothing) :: (target, before source) :: patches))
    (room : before target = nothing) :
    Patched before (relocate nothing target source now) patches := by
  have arrived : now target = before source :=
    patched.written (target, before source) (List.mem_cons_of_mem _ List.mem_cons_self)
  unfold relocate
  rw [arrived, ← room]
  exact patched.remove.remove

end Patched

end Containr.Patches
