import Mathlib.Data.List.Basic
import Mathlib.Data.List.Induction

/-!
# File trees with symbolic links

A tree says what stands under each canonical path: the list of names from the
root, none of them a link. `resolve` follows a path name by name the way the
kernel does: a link is replaced by its target, at most `links` times in all, and
the last name is followed only on request.
-/

namespace Containr.Files

inductive Segment (Name : Type) where
  | current | parent
  | name (name : Name)
deriving DecidableEq

/-- The text of a link, split at its separators. -/
structure Target (Name : Type) where
  absolute : Bool
  segments : List (Segment Name)
deriving DecidableEq

inductive Node (Name : Type) where
  | directory | file
  | link (target : Target Name)
deriving DecidableEq

def Node.isLink {Name : Type} : Node Name → Bool
  | .directory | .file => false
  | .link _ => true

structure Tree (Name : Type) where
  node : List Name → Option (Node Name)
  root : node [] = some .directory
  closed : ∀ path name, node (path ++ [name]) ≠ none → node path = some .directory

inductive Failure where
  | notFound | notADirectory | loop
deriving DecidableEq

variable {Name : Type}

namespace Tree

def listed [DecidableEq Name] (entries : List (List Name × Node Name)) (path : List Name) :
    Option (Node Name) :=
  if path = [] then some .directory
  else (entries.find? fun entry => entry.1 = path).map Prod.snd

def ofEntries [DecidableEq Name] (entries : List (List Name × Node Name))
    (whole : ∀ entry ∈ entries, listed entries entry.1.dropLast = some .directory) : Tree Name where
  node := listed entries
  root := rfl
  closed path name present := by
    unfold listed at present
    rw [if_neg (by simp)] at present
    cases found : entries.find? fun entry => entry.1 = path ++ [name] with
    | none => simp [found] at present
    | some entry =>
        have above := whole entry (List.mem_of_find?_eq_some found)
        have isPath : entry.1 = path ++ [name] := by simpa using List.find?_some found
        rw [isPath, List.dropLast_concat] at above
        exact above

/-- Where a link found in the directory starts from. -/
def origin (directory : List Name) (target : Target Name) : List Name :=
  if target.absolute then [] else directory

/-- Walks from a directory; `follow` is asked where a link has to be replaced. -/
def walk (tree : Tree Name) (followLast : Bool)
    (follow : List Name → List (Segment Name) → Except Failure (List Name)) :
    List Name → List (Segment Name) → Except Failure (List Name)
  | directory, [] => .ok directory
  | directory, .current :: rest => tree.walk followLast follow directory rest
  | directory, .parent :: rest => tree.walk followLast follow directory.dropLast rest
  | directory, .name name :: rest =>
      match tree.node (directory ++ [name]) with
      | none => .error .notFound
      | some .directory => tree.walk followLast follow (directory ++ [name]) rest
      | some .file => if rest.isEmpty then .ok (directory ++ [name]) else .error .notADirectory
      | some (.link target) =>
          if rest.isEmpty && !followLast then .ok (directory ++ [name])
          else follow (origin directory target) (target.segments ++ rest)

/-- The canonical path of what the segments lead to. -/
def resolve (tree : Tree Name) (followLast : Bool) :
    (links : Nat) → List Name → List (Segment Name) → Except Failure (List Name)
  | 0 => tree.walk followLast fun _ _ => .error .loop
  | links + 1 => tree.walk followLast (tree.resolve followLast links)

theorem directory_above (tree : Tree Name) {path : List Name} (exists_ : tree.node path ≠ none)
    {front : List Name} (above : front <+: path) (proper : front ≠ path) :
    tree.node front = some .directory := by
  induction path using List.reverseRecOn with
  | nil => exact absurd (List.prefix_nil.mp above) proper
  | append_singleton rest last ih =>
      have upper := tree.closed rest last exists_
      rcases List.prefix_concat_iff.mp above with same | inside
      · exact absurd same proper
      · by_cases whole : front = rest
        · rw [whole]
          exact upper
        · exact ih (by simp [upper]) inside whole

/-- Nothing stands below a path without an entry. -/
theorem absent_extends (tree : Tree Name) {path longer : List Name} (absent : tree.node path = none)
    (extends_ : path <+: longer) : tree.node longer = none := by
  by_contra present
  by_cases same : path = longer
  · rw [same] at absent
    exact present absent
  · rw [tree.directory_above present extends_ same] at absent
    cases absent

theorem directory_parent (tree : Tree Name) {directory : List Name}
    (isDirectory : tree.node directory = some .directory) :
    tree.node directory.dropLast = some .directory := by
  by_cases top : directory = []
  · rw [top]
    exact tree.root
  · have present : tree.node directory ≠ none := by simp [isDirectory]
    apply tree.directory_above present
    · exact List.dropLast_prefix directory
    · intro same
      have shorter := congrArg List.length same
      have positive := List.length_pos_of_ne_nil top
      rw [List.length_dropLast] at shorter
      omega

theorem directory_origin (tree : Tree Name) {directory : List Name} (target : Target Name)
    (isDirectory : tree.node directory = some .directory) :
    tree.node (origin directory target) = some .directory := by
  unfold origin
  split_ifs
  · exact tree.root
  · exact isDirectory

section Walk

variable (tree : Tree Name) {followLast : Bool}
  {follow other : List Name → List (Segment Name) → Except Failure (List Name)}
  {directory path : List Name} {segments : List (Segment Name)}

/-- Everything is followed: the walk ends at an entry that is no link. -/
theorem walk_found
    (found : ∀ start rest end_, tree.node start = some .directory → follow start rest = .ok end_ →
      ∃ node, tree.node end_ = some node ∧ node.isLink = false)
    (isDirectory : tree.node directory = some .directory)
    (walked : tree.walk true follow directory segments = .ok path) :
    ∃ node, tree.node path = some node ∧ node.isLink = false := by
  induction segments generalizing directory with
  | nil =>
      have same : directory = path := Except.ok.inj walked
      rw [← same]
      exact ⟨.directory, isDirectory, rfl⟩
  | cons segment rest ih =>
      cases segment with
      | current => exact ih isDirectory walked
      | parent => exact ih (tree.directory_parent isDirectory) walked
      | name name =>
          rw [walk] at walked
          cases entry : tree.node (directory ++ [name]) with
          | none => simp [entry] at walked
          | some node =>
              cases node with
              | directory =>
                  rw [entry] at walked
                  exact ih entry walked
              | file =>
                  simp only [entry] at walked
                  split_ifs at walked
                  have same : directory ++ [name] = path := Except.ok.inj walked
                  rw [← same]
                  exact ⟨.file, entry, rfl⟩
              | link target =>
                  simp only [entry, Bool.not_true, Bool.and_false, Bool.false_eq_true,
                    if_false] at walked
                  exact found _ _ path (tree.directory_origin target isDirectory) walked

/-- A walk that did not run out of links does not change with a more patient one. -/
theorem walk_more
    (more : ∀ start rest, follow start rest ≠ .error .loop → other start rest = follow start rest)
    (ended : tree.walk followLast follow directory segments ≠ .error .loop) :
    tree.walk followLast other directory segments =
      tree.walk followLast follow directory segments := by
  induction segments generalizing directory with
  | nil => rfl
  | cons segment rest ih =>
      cases segment with
      | current => exact ih ended
      | parent => exact ih ended
      | name name =>
          rw [walk] at ended
          rw [walk, walk]
          cases entry : tree.node (directory ++ [name]) with
          | none => rfl
          | some node =>
              cases node with
              | directory =>
                  rw [entry] at ended
                  exact ih ended
              | file => rfl
              | link target =>
                  simp only [entry] at ended ⊢
                  split_ifs at ended ⊢ with last
                  · rfl
                  · exact more _ _ ended

def enter (path : List Name) (name : Name) : Except Failure (List Name) :=
  match tree.node path with
  | some .directory =>
      match tree.node (path ++ [name]) with
      | none => .error .notFound
      | some _ => .ok (path ++ [name])
  | _ => .error .notADirectory

/-- Looking a name up below a path is looking it up below where the path leads. -/
theorem walk_append (name : Name)
    (below : ∀ start rest end_, tree.node start = some .directory → follow start rest = .ok end_ →
      other start (rest ++ [.name name]) = tree.enter end_ name)
    (isDirectory : tree.node directory = some .directory)
    (walked : tree.walk true follow directory segments = .ok path) :
    tree.walk false other directory (segments ++ [.name name]) = tree.enter path name := by
  induction segments generalizing directory with
  | nil =>
      have same : directory = path := Except.ok.inj walked
      rw [← same, List.nil_append, walk, enter, isDirectory]
      cases tree.node (directory ++ [name]) with
      | none => rfl
      | some node => cases node <;> rfl
  | cons segment rest ih =>
      cases segment with
      | current => exact ih isDirectory walked
      | parent => exact ih (tree.directory_parent isDirectory) walked
      | name first =>
          rw [walk] at walked
          rw [List.cons_append, walk]
          have longer : (rest ++ [Segment.name name]).isEmpty = false := by simp
          cases entry : tree.node (directory ++ [first]) with
          | none => simp [entry] at walked
          | some node =>
              cases node with
              | directory =>
                  rw [entry] at walked
                  exact ih entry walked
              | file =>
                  simp only [entry] at walked
                  split_ifs at walked
                  have same : directory ++ [first] = path := Except.ok.inj walked
                  rw [← same]
                  simp [enter, entry]
              | link target =>
                  simp only [entry, Bool.not_true, Bool.and_false, Bool.false_eq_true,
                    if_false] at walked
                  simp only [longer, Bool.false_and, Bool.false_eq_true, if_false]
                  rw [← List.append_assoc]
                  exact below _ _ path (tree.directory_origin target isDirectory) walked

end Walk

section Resolve

variable (tree : Tree Name) {directory path : List Name} {segments : List (Segment Name)}
  {links : Nat}

theorem resolve_found (isDirectory : tree.node directory = some .directory)
    (resolved : tree.resolve true links directory segments = .ok path) :
    ∃ node, tree.node path = some node ∧ node.isLink = false := by
  induction links generalizing directory segments path with
  | zero => exact tree.walk_found (fun _ _ _ _ impossible => by cases impossible) isDirectory resolved
  | succ links ih =>
      exact tree.walk_found (fun _ _ _ start followed => ih start followed) isDirectory resolved

theorem resolve_succ {followLast : Bool}
    (ended : tree.resolve followLast links directory segments ≠ .error .loop) :
    tree.resolve followLast (links + 1) directory segments =
      tree.resolve followLast links directory segments := by
  induction links generalizing directory segments with
  | zero => exact tree.walk_more (fun _ _ impossible => absurd rfl impossible) ended
  | succ links ih => exact tree.walk_more (fun _ _ followed => ih followed) ended

/-- The limit on links only decides between an answer and `loop`. -/
theorem resolve_mono {followLast : Bool} {more : Nat} (larger : links ≤ more)
    (ended : tree.resolve followLast links directory segments ≠ .error .loop) :
    tree.resolve followLast more directory segments =
      tree.resolve followLast links directory segments := by
  induction larger with
  | refl => rfl
  | step _ ih =>
      rw [tree.resolve_succ, ih]
      rw [ih]
      exact ended

theorem resolve_append (name : Name) (isDirectory : tree.node directory = some .directory)
    (resolved : tree.resolve true links directory segments = .ok path) :
    tree.resolve false links directory (segments ++ [.name name]) = tree.enter path name := by
  induction links generalizing directory segments path with
  | zero =>
      exact tree.walk_append name (fun _ _ _ _ impossible => by cases impossible) isDirectory
        resolved
  | succ links ih =>
      exact tree.walk_append name (fun _ _ _ start followed => ih start followed) isDirectory
        resolved

/-- A name that is not there below a path is not there below the canonical path,
whatever the two limits were. -/
theorem absent_below {lookups : Nat} {name : Name}
    (isDirectory : tree.node directory = some .directory)
    (resolved : tree.resolve true links directory segments = .ok path)
    (absent : tree.resolve false lookups directory (segments ++ [.name name]) =
      .error .notFound) : tree.node (path ++ [name]) = none := by
  let most := max links lookups
  have whole : tree.resolve true most directory segments = .ok path := by
    rw [tree.resolve_mono (Nat.le_max_left links lookups) (by rw [resolved]; simp)]
    exact resolved
  have entered := tree.resolve_append name isDirectory whole
  rw [tree.resolve_mono (Nat.le_max_right links lookups) (by rw [absent]; simp), absent] at entered
  unfold enter at entered
  cases top : tree.node path with
  | none => simp [top] at entered
  | some node =>
      cases node with
      | file => simp [top] at entered
      | link target => simp [top] at entered
      | directory =>
          cases entry : tree.node (path ++ [name]) with
          | none => rfl
          | some node => simp [top, entry] at entered

end Resolve

end Tree

end Containr.Files
