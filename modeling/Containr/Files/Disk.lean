import Containr.Files.Tree

/-!
# Files with contents

A tree whose files have a number under which their contents are kept, so that one file can stand
in several places. `Place` is where a path leads when the links among its parents are followed and
the last name is not.
-/

namespace Containr.Files

inductive Object (Name : Type) where
  | directory
  | file (inode : Nat)
  | link (target : Target Name)
deriving DecidableEq

def Object.node {Name : Type} : Object Name → Node Name
  | .directory => .directory
  | .file _ => .file
  | .link target => .link target

/-- Only directories have entries, and `next` is above all numbers in use. -/
structure Disk (Name : Type) where
  object : List Name → Option (Object Name)
  content : Nat → List UInt8
  next : Nat
  root : object [] = some .directory
  closed : ∀ path name, object (path ++ [name]) ≠ none → object path = some .directory
  bounded : ∀ path inode, object path = some (.file inode) → inode < next

variable {Name : Type}

namespace Disk

def tree (disk : Disk Name) : Tree Name where
  node path := (disk.object path).map Object.node
  root := by rw [disk.root]; rfl
  closed path name present := by
    have above := disk.closed path name (fun absent => present (by rw [absent]; rfl))
    rw [above]
    rfl

def isLink (disk : Disk Name) (path : List Name) : Prop :=
  ∃ target, disk.object path = some (.link target)

theorem directory_above (disk : Disk Name) {front rest : List Name} (present :
    disk.object (front ++ rest) ≠ none) (proper : rest ≠ []) :
    disk.object front = some .directory := by
  induction rest using List.reverseRecOn with
  | nil => exact absurd rfl proper
  | append_singleton rest last ih =>
      rw [← List.append_assoc] at present
      have above := disk.closed _ _ present
      by_cases top : rest = []
      · rw [top, List.append_nil] at above
        exact above
      · exact ih (by simp [above]) top

section Put

variable [DecidableEq Name]

def CanHold (disk : Disk Name) (location : List Name) : Prop :=
  location ≠ [] ∧ disk.object location.dropLast = some .directory ∧
    disk.object location ≠ some .directory

instance (disk : Disk Name) (location : List Name) : Decidable (disk.CanHold location) :=
  inferInstanceAs (Decidable (_ ∧ _))

def putObject (disk : Disk Name) (location : List Name) (object : Object Name) (path : List Name) :
    Option (Object Name) := if path = location then some object else disk.object path

variable {disk : Disk Name} {location : List Name} {object : Object Name}

theorem put_root (can : disk.CanHold location) :
    disk.putObject location object [] = some .directory := by
  unfold putObject
  rw [if_neg (Ne.symm can.1)]
  exact disk.root

theorem put_closed (can : disk.CanHold location) (path : List Name) (name : Name)
    (present : disk.putObject location object (path ++ [name]) ≠ none) :
    disk.putObject location object path = some .directory := by
  unfold putObject at present ⊢
  by_cases here : path ++ [name] = location
  · have above : location.dropLast = path := by
      rw [← here, List.dropLast_concat]
    have other : path ≠ location := by
      intro same
      rw [← same] at here
      simp at here
    rw [if_neg other, ← above]
    exact can.2.1
  · rw [if_neg here] at present
    have isDirectory := disk.closed path name present
    have other : path ≠ location := by
      intro same
      rw [same] at isDirectory
      exact can.2.2 isDirectory
    rw [if_neg other]
    exact isDirectory

theorem put_bounded {next : Nat} (more : disk.next ≤ next)
    (small : ∀ inode, object = .file inode → inode < next) (path : List Name) (inode : Nat)
    (isFile : disk.putObject location object path = some (.file inode)) : inode < next := by
  unfold putObject at isFile
  split_ifs at isFile with here
  · exact small inode (Option.some.inj isFile)
  · have below := disk.bounded path inode isFile
    omega

def put (disk : Disk Name) (location : List Name) (object : Object Name)
    (can : disk.CanHold location) (small : ∀ inode, object = .file inode → inode < disk.next) :
    Disk Name where
  object := disk.putObject location object
  content := disk.content
  next := disk.next
  root := put_root can
  closed := put_closed can
  bounded := put_bounded (Nat.le_refl disk.next) small

def putFile (disk : Disk Name) (location : List Name) (data : List UInt8)
    (can : disk.CanHold location) : Disk Name where
  object := disk.putObject location (.file disk.next)
  content inode := if inode = disk.next then data else disk.content inode
  next := disk.next + 1
  root := put_root can
  closed := put_closed can
  bounded := put_bounded (Nat.le_succ _) fun inode same => by
    have isNext : disk.next = inode := Object.file.inj same
    omega

omit [DecidableEq Name] in
theorem directory_small (disk : Disk Name) (inode : Nat)
    (same : (Object.directory : Object Name) = .file inode) : inode < disk.next := by cases same

omit [DecidableEq Name] in
theorem link_small (disk : Disk Name) (target : Target Name) (inode : Nat)
    (same : Object.link target = .file inode) : inode < disk.next := by cases same

end Put

/-- The names lead from the directory to `final`; a name that is not there yet will be a
directory. -/
inductive Lands (disk : Disk Name) : List Name → List Name → List Name → Prop where
  | here (directory : List Name) : Lands disk directory [] directory
  | down {directory rest final : List Name} {name : Name}
      (plain : ¬disk.isLink (directory ++ [name]))
      (further : Lands disk (directory ++ [name]) rest final) :
      Lands disk directory (name :: rest) final
  | through {directory rest middle final : List Name} {name : Name} {target : Target Name}
      {links : Nat} (link : disk.object (directory ++ [name]) = some (.link target))
      (followed : disk.tree.resolve true links (Tree.origin directory target) target.segments =
        .ok middle)
      (further : Lands disk middle rest final) : Lands disk directory (name :: rest) final

def Place (disk : Disk Name) (start names location : List Name) : Prop :=
  ∃ front name directory, names = front ++ [name] ∧ Lands disk start front directory ∧
    location = directory ++ [name]

def OnTheWay (disk : Disk Name) (start names location : List Name) : Prop :=
  ∃ front, front <+: names ∧ Place disk start front location

variable {disk : Disk Name}

theorem lands_plain {start names : List Name}
    (plain : ∀ front, front ≠ [] → front <+: names → ¬disk.isLink (start ++ front))
    (final : List Name) : Lands disk start names final ↔ final = start ++ names := by
  induction names generalizing start with
  | nil =>
      rw [List.append_nil]
      constructor
      · intro lands
        cases lands
        rfl
      · intro same
        rw [same]
        exact .here start
  | cons name names ih =>
      have first : ¬disk.isLink (start ++ [name]) :=
        plain [name] (by simp) ⟨names, rfl⟩
      have later : ∀ front, front ≠ [] → front <+: names →
          ¬disk.isLink (start ++ [name] ++ front) := by
        intro front _ within
        rw [List.append_assoc]
        exact plain (name :: front) (by simp) (List.cons_prefix_cons.mpr ⟨rfl, within⟩)
      have whole : start ++ name :: names = start ++ [name] ++ names := by simp
      rw [whole]
      constructor
      · intro lands
        cases lands with
        | down _ further => exact (ih later).mp further
        | through link _ _ => exact absurd ⟨_, link⟩ first
      · intro same
        exact .down first ((ih later).mpr same)

/-- Without links among the parents the path leads to itself. -/
theorem place_plain {start names location : List Name}
    (plain : ∀ front, front ≠ [] → front <+: names → front ≠ names →
      ¬disk.isLink (start ++ front)) :
    Place disk start names location ↔ names ≠ [] ∧ location = start ++ names := by
  have parents {front : List Name} {name : Name} (whole : names = front ++ [name])
      (final : List Name) : Lands disk start front final ↔ final = start ++ front := by
    apply lands_plain
    intro part nonempty within
    apply plain part nonempty
    · rw [whole]
      exact within.trans (List.prefix_append _ _)
    · intro same
      rw [same, whole] at within
      have shorter := within.length_le
      rw [List.length_append, List.length_singleton] at shorter
      omega
  constructor
  · intro place
    obtain ⟨front, name, directory, whole, lands, isLocation⟩ := place
    rw [(parents whole _).mp lands] at isLocation
    constructor
    · simp [whole]
    · rw [isLocation, whole, List.append_assoc]
  · intro both
    rcases List.eq_nil_or_concat names with nothing | ⟨front, name, whole⟩
    · exact absurd nothing both.1
    · rw [List.concat_eq_append] at whole
      exact ⟨front, name, start ++ front, whole, (parents whole _).mpr rfl, by
        rw [both.2, whole, List.append_assoc]⟩

theorem on_the_way_plain {start names location : List Name}
    (plain : ∀ front, front ≠ [] → front <+: names → front ≠ names →
      ¬disk.isLink (start ++ front)) : OnTheWay disk start names location ↔
      ∃ front, front ≠ [] ∧ front <+: names ∧ location = start ++ front := by
  have inner {front : List Name} (within : front <+: names) : ∀ part, part ≠ [] →
      part <+: front → part ≠ front → ¬disk.isLink (start ++ part) := by
    intro part nonempty inFront proper
    apply plain part nonempty (inFront.trans within)
    intro same
    rw [same] at inFront proper
    exact proper (within.eq_of_length_le inFront.length_le).symm
  constructor
  · intro onTheWay
    obtain ⟨front, within, place⟩ := onTheWay
    obtain ⟨nonempty, same⟩ := (place_plain (inner within)).mp place
    exact ⟨front, nonempty, within, same⟩
  · intro found
    obtain ⟨front, nonempty, within, same⟩ := found
    exact ⟨front, within, (place_plain (inner within)).mpr ⟨nonempty, same⟩⟩

end Disk

end Containr.Files
