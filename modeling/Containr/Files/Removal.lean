import Containr.Files.Disk

/-!
# Removing what stands under a path

A removal unlinks what has no entries, one after the other, at the path or below it. A link is
unlinked and not followed, and the removal may stop anywhere.
-/

namespace Containr.Files.Disk

variable {Name : Type} {disk after : Disk Name} {start front rest location : List Name}

def LinkFree (disk : Disk Name) (directory : List Name) : Prop :=
  ∀ below, below ≠ [] → ¬disk.isLink (directory ++ below)

theorem lands_append {final : List Name} (lands : Lands disk start (front ++ rest) final) :
    ∃ middle, Lands disk start front middle ∧ Lands disk middle rest final := by
  induction front generalizing start with
  | nil => exact ⟨start, .here start, lands⟩
  | cons name front ih =>
      cases lands with
      | down plain further =>
          obtain ⟨middle, first, second⟩ := ih further
          exact ⟨middle, .down plain first, second⟩
      | through link followed further =>
          obtain ⟨middle, first, second⟩ := ih further
          exact ⟨middle, .through link followed first, second⟩

/-- A path into a directory without links leads below where the directory is. -/
theorem place_below (place : Place disk start (front ++ rest) location) (proper : rest ≠ [])
    (free : ∀ directory, Lands disk start front directory → disk.LinkFree directory) :
    ∃ directory, Lands disk start front directory ∧ location = directory ++ rest := by
  obtain ⟨parents, name, parent, whole, lands, isLocation⟩ := place
  rcases List.eq_nil_or_concat rest with nothing | ⟨between, last, isRest⟩
  · exact absurd nothing proper
  · rw [List.concat_eq_append] at isRest
    rw [isRest, ← List.append_assoc] at whole
    have split := List.append_inj' whole rfl
    have sameLast : last = name := by simpa using split.2
    rw [← split.1] at lands
    obtain ⟨directory, first, second⟩ := lands_append lands
    have plain : ∀ below, below ≠ [] → below <+: between → ¬disk.isLink (directory ++ below) :=
      fun below nonempty _ => free directory first below nonempty
    have isParent := (lands_plain plain parent).mp second
    refine ⟨directory, first, ?_⟩
    rw [isLocation, isParent, isRest, sameLast, List.append_assoc]

section Unlink

variable [DecidableEq Name]

def CanUnlink (disk : Disk Name) (location : List Name) : Prop :=
  location ≠ [] ∧ ∀ name, disk.object (location ++ [name]) = none

def unlinked (disk : Disk Name) (location path : List Name) : Option (Object Name) :=
  if path = location then none else disk.object path

theorem unlinked_root (can : disk.CanUnlink location) :
    disk.unlinked location [] = some .directory := by
  unfold unlinked
  rw [if_neg (Ne.symm can.1)]
  exact disk.root

theorem unlinked_closed (can : disk.CanUnlink location) (path : List Name) (name : Name)
    (present : disk.unlinked location (path ++ [name]) ≠ none) :
    disk.unlinked location path = some .directory := by
  unfold unlinked at present ⊢
  split_ifs at present with here
  · exact absurd rfl present
  · have isDirectory := disk.closed path name present
    have other : path ≠ location := by
      intro same
      rw [same] at present
      exact present (can.2 name)
    rw [if_neg other]
    exact isDirectory

theorem unlinked_bounded (path : List Name) (inode : Nat)
    (isFile : disk.unlinked location path = some (.file inode)) : inode < disk.next := by
  unfold unlinked at isFile
  split_ifs at isFile with here
  exact disk.bounded path inode isFile

def unlink (disk : Disk Name) (location : List Name) (can : disk.CanUnlink location) :
    Disk Name where
  object := disk.unlinked location
  content := disk.content
  next := disk.next
  root := unlinked_root can
  closed := unlinked_closed can
  bounded := unlinked_bounded

inductive Removal (disk : Disk Name) (location : List Name) : Disk Name → Prop
  | start : Removal disk location disk
  | unlink {after : Disk Name} {place : List Name} (removal : Removal disk location after)
      (below : location <+: place) (can : after.CanUnlink place) :
      Removal disk location (after.unlink place can)

theorem removal_outside (removal : Removal disk location after) {other : List Name}
    (outside : ¬location <+: other) : after.object other = disk.object other := by
  induction removal with
  | start => rfl
  | @unlink before place _ below can ih =>
      have differs : other ≠ place := by
        intro same
        rw [same] at outside
        exact outside below
      have kept : (before.unlink place can).object other = before.object other := if_neg differs
      rw [kept, ih]

theorem removal_content (removal : Removal disk location after) : after.content = disk.content := by
  induction removal with
  | start => rfl
  | unlink _ _ _ ih => exact ih

end Unlink

end Containr.Files.Disk
