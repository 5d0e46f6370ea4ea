import Containr.Api.Archives
import Mathlib.Data.List.Infix

/-!
# An archive is extracted into its destination

The recorded links are the links on the disk, and perhaps some that were replaced. So no entry is
written through a link, and nothing outside the destination is touched.
-/

namespace Containr.Api.Archives

open Containr.Effect Containr.Files

theorem require_ok {condition : Bool} {message : String} {result : Unit}
    (passed : require condition message = .ok result) : condition = true := by
  unfold require at passed
  split_ifs at passed with holds
  exact holds

theorem map_error_ok {Value : Type} {describe : String → String} {result : Except String Value}
    {value : Value} (ok : result.mapError describe = .ok value) : result = .ok value := by
  cases result with
  | error message => cases ok
  | ok other => exact ok

variable {entry : Entry}

theorem link_target_ok {target : String} (found : linkTarget entry = .ok target) :
    entry.linkName = .ok (some target) := by
  unfold linkTarget at found
  cases name : entry.linkName with
  | error message =>
      rw [name] at found
      cases found
  | ok text =>
      rw [name] at found
      cases text with
      | none => cases found
      | some other =>
          rw [Except.ok.inj found]

theorem normalize_entry_path_ok {path : String} {names : FilePath}
    (normal : normalizeEntryPath path = .ok names) : names = pathNames path := by
  have loop : ∀ keep : Path.Component → Option FileName, (∀ part, keep (.normal part) = some part) →
      keep .curDir = none → ∀ (parts : List Path.Component) (front : FilePath),
        normalizeEntryPath.go path front parts = .ok names → names = front ++ parts.filterMap keep := by
    intro keep keepsName dropsCurrent parts
    induction parts with
    | nil =>
        intro front done
        simp [Except.ok.inj done]
    | cons part rest ih =>
        intro front done
        cases part with
        | normal part =>
            have later := ih (front ++ [part]) done
            simpa [keepsName] using later
        | curDir =>
            have later := ih front done
            simpa [dropsCurrent] using later
        | parentDir => cases done
        | rootDir => cases done
  unfold pathNames
  rw [← List.nil_append (List.filterMap _ _)]
  exact loop _ (fun _ => rfl) rfl _ [] normal

variable {path : FilePath}

theorem mem_ancestors {front : FilePath} : front ∈ ancestors path ↔ front <+: path := by
  unfold ancestors
  rw [List.mem_reverse, List.mem_inits]

theorem mem_ancestors_tail {front : FilePath} (within : front <+: path) (proper : front ≠ path) :
    front ∈ (ancestors path).tail := by
  rcases List.eq_nil_or_concat path with nothing | ⟨parent, name, whole⟩
  · rw [nothing] at within proper
    exact absurd (List.prefix_nil.mp within) proper
  · rw [List.concat_eq_append] at whole
    have above : (ancestors path).tail = ancestors parent := by
      unfold ancestors
      rw [whole, List.inits_append]
      simp
    rw [above, mem_ancestors]
    rw [whole] at within proper
    rcases List.prefix_concat_iff.mp within with same | inside
    · exact absurd same proper
    · exact inside

/-- What is known of an entry that comes to `unpack_in`. -/
structure Passed (state : Unpacking) (entry : Entry) (next : Unpacking) : Prop where
  nonempty : entry.names ≠ []
  sameDisk : next.disk = state.disk
  unlinked : ∀ front, front <+: entry.names → front ≠ entry.names → front ∉ state.symlinks
  kept : state.symlinks ⊆ next.symlinks
  supported : entry.kind ≠ .other
  recorded : entry.kind = .symlink → entry.names ∈ next.symlinks
  inside : entry.kind = .symlink → ∃ target, entry.linkName = .ok (some target) ∧
    Path.isAbsolute target = false ∧ (resolveInsideRoot
      (entry.names.dropLast.map Path.Component.normal ++ Path.components target)).isSome = true
  source : entry.kind = .hardLink → ∃ target, entry.linkName = .ok (some target) ∧
    pathNames target ≠ [] ∧ ∀ front, front <+: pathNames target → front ∉ state.symlinks

structure TypePassed (symlinks : List FilePath) (path : FilePath) (entry : Entry)
    (next : List FilePath) : Prop where
  kept : symlinks ⊆ next
  supported : entry.kind ≠ .other
  recorded : entry.kind = .symlink → path ∈ next
  inside : entry.kind = .symlink → ∃ target, entry.linkName = .ok (some target) ∧
    Path.isAbsolute target = false ∧ (resolveInsideRoot
      (path.dropLast.map Path.Component.normal ++ Path.components target)).isSome = true
  source : entry.kind = .hardLink → ∃ target, entry.linkName = .ok (some target) ∧
    pathNames target ≠ [] ∧ ∀ front, front <+: pathNames target → front ∉ symlinks

theorem check_type_passed {symlinks next : List FilePath} {rawPath : String}
    (passed : checkType symlinks rawPath path entry = .ok next) :
    TypePassed symlinks path entry next := by
  have plain (made : entry.kind = .file ∨ entry.kind = .directory) :
      TypePassed symlinks path entry symlinks := {
    kept := List.Subset.refl _
    supported := by rcases made with same | same <;> simp [same]
    recorded := by rcases made with same | same <;> simp [same]
    inside := by rcases made with same | same <;> simp [same]
    source := by rcases made with same | same <;> simp [same] }
  unfold checkType at passed
  cases kind : entry.entryType with
  | directory =>
      rw [kind] at passed
      rw [← Except.ok.inj passed]
      apply plain
      simp [Entry.kind, kind]
  | regular | continuous | gnuSparse =>
      rw [kind] at passed
      rw [← Except.ok.inj passed]
      apply plain
      simp only [Entry.kind, kind]
      split_ifs <;> simp
  | symlink =>
      rw [kind] at passed
      obtain ⟨target, found, rest⟩ := except_bind_ok passed
      obtain ⟨_, relative, rest⟩ := except_bind_ok rest
      obtain ⟨_, inside, rest⟩ := except_bind_ok rest
      rw [← Except.ok.inj rest]
      have isRelative : Path.isAbsolute target = false := by simpa using require_ok relative
      exact {
        kept := List.subset_cons_self _ _
        supported := by simp [Entry.kind, kind]
        recorded := fun _ => List.mem_cons_self
        inside := fun _ => ⟨target, link_target_ok found, isRelative, require_ok inside⟩
        source := by simp [Entry.kind, kind] }
  | link =>
      rw [kind] at passed
      obtain ⟨text, found, rest⟩ := except_bind_ok passed
      obtain ⟨target, normal, rest⟩ := except_bind_ok rest
      obtain ⟨_, valid, rest⟩ := except_bind_ok rest
      rw [← Except.ok.inj rest]
      have isNames : target = pathNames text := normalize_entry_path_ok (map_error_ok normal)
      have checks := require_ok valid
      simp only [Bool.not_eq_true', Bool.or_eq_false_iff, List.any_eq_false] at checks
      exact {
        kept := List.Subset.refl _
        supported := by simp [Entry.kind, kind]
        recorded := by simp [Entry.kind, kind]
        inside := by simp [Entry.kind, kind]
        source := fun _ => ⟨text, link_target_ok found, by
          rw [← isNames]
          simpa using checks.1, by
          rw [← isNames]
          intro front within
          have absent := checks.2 front (mem_ancestors.mpr within)
          simpa using absent⟩ }
  | other debug =>
      rw [kind] at passed
      cases passed

variable {item : Except String Entry} {state next : Unpacking}

theorem check_entry_skipped (skipped : checkEntry state item = .ok (none, next)) :
    next.disk = state.disk ∧ next.symlinks = state.symlinks ∧
      ∃ entry, item = .ok entry ∧ entry.names = [] := by
  unfold checkEntry at skipped
  obtain ⟨entry, read, rest⟩ := except_bind_ok skipped
  obtain ⟨_, few, rest⟩ := except_bind_ok rest
  obtain ⟨rawPath, found, rest⟩ := except_bind_ok rest
  obtain ⟨path, normal, rest⟩ := except_bind_ok rest
  split_ifs at rest with isRoot
  · have parts := Prod.mk.inj (Except.ok.inj rest)
    have names : entry.names = path := by
      unfold Entry.names rawText
      rw [map_error_ok found]
      exact (normalize_entry_path_ok normal).symm
    have empty : entry.names = [] := by
      rw [names]
      simpa using isRoot
    rw [← parts.2]
    exact ⟨rfl, rfl, entry, map_error_ok read, empty⟩
  · obtain ⟨_, outer, rest⟩ := except_bind_ok rest
    obtain ⟨symlinks, typed, rest⟩ := except_bind_ok rest
    obtain ⟨_, small, rest⟩ := except_bind_ok rest
    cases (Prod.mk.inj (Except.ok.inj rest)).1

theorem check_entry_passed (passed : checkEntry state item = .ok (some entry, next)) :
    item = .ok entry ∧ Passed state entry next := by
  unfold checkEntry at passed
  obtain ⟨other, read, rest⟩ := except_bind_ok passed
  obtain ⟨_, few, rest⟩ := except_bind_ok rest
  obtain ⟨rawPath, found, rest⟩ := except_bind_ok rest
  obtain ⟨path, normal, rest⟩ := except_bind_ok rest
  split_ifs at rest with isRoot
  · cases (Prod.mk.inj (Except.ok.inj rest)).1
  · obtain ⟨_, outer, rest⟩ := except_bind_ok rest
    obtain ⟨symlinks, typed, rest⟩ := except_bind_ok rest
    obtain ⟨_, small, rest⟩ := except_bind_ok rest
    have parts := Prod.mk.inj (Except.ok.inj rest)
    have isEntry : other = entry := Option.some.inj parts.1
    have names : path = entry.names := by
      rw [← isEntry]
      unfold Entry.names rawText
      rw [map_error_ok found]
      exact normalize_entry_path_ok normal
    have kind := check_type_passed typed
    have apart := require_ok outer
    simp only [Bool.not_eq_true', List.any_eq_false] at apart
    rw [isEntry, names] at kind
    rw [isEntry] at read
    rw [names] at apart isRoot
    rw [← parts.2]
    exact ⟨map_error_ok read, {
      nonempty := by simpa using isRoot
      sameDisk := rfl
      unlinked := by
        intro front within proper
        simpa using apart front (mem_ancestors_tail within proper)
      kept := kind.kept
      supported := kind.supported
      recorded := kind.recorded
      inside := kind.inside
      source := kind.source }⟩

/-- What holds between the rounds: outside the destination nothing differs from the start, no file
stands both inside and outside, and the links inside are recorded. -/
structure Confined (dest : FilePath) (start disk : Disk FileName) (symlinks : List FilePath) :
    Prop where
  directory : disk.object dest = some .directory
  outside : ∀ location, ¬dest <+: location → disk.object location = start.object location
  contents : ∀ location inode, ¬dest <+: location → start.object location = some (.file inode) →
    disk.content inode = start.content inode
  apart : ∀ inner outer inode, dest <+: inner → ¬dest <+: outer →
    disk.object inner = some (.file inode) → disk.object outer ≠ some (.file inode)
  recorded : ∀ names, disk.isLink (dest ++ names) → names ∈ symlinks

section Step

variable {dest : FilePath} {start after : Disk FileName} {state next : Unpacking} {entry : Entry}
  {result : Except String Bool}

theorem entry_plain (confined : Confined dest start state.disk state.symlinks)
    (passed : Passed state entry next) : ∀ front, front ≠ [] → front <+: entry.names →
      front ≠ entry.names → ¬state.disk.isLink (dest ++ front) := by
  intro front _ within proper isLink
  exact passed.unlinked front within proper (confined.recorded front isLink)

theorem entry_place (confined : Confined dest start state.disk state.symlinks)
    (passed : Passed state entry next) (location : FilePath) :
    Disk.Place state.disk dest entry.names location ↔ location = dest ++ entry.names := by
  rw [Disk.place_plain (entry_plain confined passed)]
  simp [passed.nonempty]

theorem changed_below (confined : Confined dest start state.disk state.symlinks)
    (passed : Passed state entry next) (unpacked : Unpacked dest state.disk entry result after)
    {location : FilePath} (changed : after.object location ≠ state.disk.object location) :
    ∃ front, front ≠ [] ∧ front <+: entry.names ∧ location = dest ++ front :=
  (Disk.on_the_way_plain (entry_plain confined passed)).mp (unpacked.onTheWay location changed)

theorem hard_link_source (confined : Confined dest start state.disk state.symlinks)
    (passed : Passed state entry next) (isHard : entry.kind = .hardLink) {target : String}
    (named : entry.linkName = .ok (some target)) {source : FilePath}
    (place : Disk.Place state.disk dest (pathNames target) source) :
    dest <+: source ∧ source ≠ dest ∧ ¬state.disk.isLink source := by
  obtain ⟨other, otherNamed, nonempty, unlinked⟩ := passed.source isHard
  have same : other = target := Option.some.inj (Except.ok.inj (otherNamed.symm.trans named))
  rw [same] at nonempty unlinked
  have plain : ∀ front, front ≠ [] → front <+: pathNames target → front ≠ pathNames target →
      ¬state.disk.isLink (dest ++ front) := by
    intro front _ within _ isLink
    exact unlinked front within (confined.recorded front isLink)
  have isSource := ((Disk.place_plain plain).mp place).2
  rw [isSource]
  refine ⟨List.prefix_append _ _, ?_, ?_⟩
  · intro top
    exact nonempty (by simpa using top)
  · intro isLink
    exact unlinked _ List.prefix_rfl (confined.recorded _ isLink)

theorem changed_made (confined : Confined dest start state.disk state.symlinks)
    (passed : Passed state entry next) (unpacked : Unpacked dest state.disk entry result after)
    {location : FilePath} {object : Object FileName}
    (changed : after.object location ≠ state.disk.object location)
    (present : after.object location = some object) (noDirectory : object ≠ .directory) :
    location = dest ++ entry.names ∧ Made dest state.disk entry object := by
  by_cases place : Disk.Place state.disk dest entry.names location
  · exact ⟨(entry_place confined passed location).mp place,
      unpacked.last location object changed place present⟩
  · have isDirectory := (unpacked.parents location changed place).2
    rw [present] at isDirectory
    exact absurd (Option.some.inj isDirectory) noDirectory

theorem Confined.unpacked (confined : Confined dest start state.disk state.symlinks)
    (passed : Passed state entry next) (unpacked : Unpacked dest state.disk entry result after) :
    Confined dest start after next.symlinks := by
  have same : ∀ location, ¬dest <+: location →
      after.object location = state.disk.object location := by
    intro location outside
    by_contra changed
    obtain ⟨front, -, -, below⟩ := changed_below confined passed unpacked changed
    rw [below] at outside
    exact outside (List.prefix_append _ _)
  constructor
  · by_contra changed
    have differs : after.object dest ≠ state.disk.object dest := by
      rw [confined.directory]
      exact changed
    obtain ⟨front, nonempty, -, below⟩ := changed_below confined passed unpacked differs
    exact nonempty (by simpa using below)
  · intro location outside
    rw [same location outside]
    exact confined.outside location outside
  · intro location inode outside isFile
    rw [← confined.contents location inode outside isFile]
    rw [← confined.outside location outside] at isFile
    by_contra changed
    rcases unpacked.contents inode changed with fresh | ⟨place, isPlace, shared⟩
    · have small := state.disk.bounded location inode isFile
      omega
    · rw [(entry_place confined passed place).mp isPlace] at shared
      exact confined.apart _ location inode (List.prefix_append _ _) outside shared isFile
  · intro inner outer inode inside outside isInner isOuter
    rw [same outer outside] at isOuter
    by_cases changed : after.object inner = state.disk.object inner
    · rw [changed] at isInner
      exact confined.apart inner outer inode inside outside isInner isOuter
    · obtain ⟨-, made⟩ := changed_made confined passed unpacked changed isInner (by simp)
      unfold Made at made
      cases kind : entry.kind with
      | file =>
          rw [kind] at made
          obtain ⟨other, isOther, fresh⟩ := made
          have small := state.disk.bounded outer inode isOuter
          have isInode := Object.file.inj isOther
          omega
      | directory =>
          rw [kind] at made
          cases made
      | symlink =>
          rw [kind] at made
          obtain ⟨target, -, isLink⟩ := made
          cases isLink
      | hardLink =>
          rw [kind] at made
          obtain ⟨target, source, named, place, isSource, -⟩ := made
          have below := hard_link_source confined passed kind named place
          exact confined.apart source outer inode below.1 outside isSource isOuter
      | other => exact absurd kind passed.supported
  · intro names isLink
    by_cases changed : after.object (dest ++ names) = state.disk.object (dest ++ names)
    · unfold Disk.isLink at isLink
      rw [changed] at isLink
      exact passed.kept (confined.recorded names isLink)
    · obtain ⟨target, present⟩ := isLink
      obtain ⟨isPlace, made⟩ := changed_made confined passed unpacked changed present (by simp)
      have isEntry : names = entry.names := List.append_cancel_left isPlace
      unfold Made at made
      cases kind : entry.kind with
      | file =>
          rw [kind] at made
          obtain ⟨inode, isFile, -⟩ := made
          cases isFile
      | directory =>
          rw [kind] at made
          cases made
      | symlink =>
          rw [isEntry]
          exact passed.recorded kind
      | hardLink =>
          rw [kind] at made
          obtain ⟨text, source, named, place, isSource, -⟩ := made
          have below := hard_link_source confined passed kind named place
          exact absurd ⟨target, isSource⟩ below.2.2
      | other => exact absurd kind passed.supported

end Step

variable {start : Disk FileName} {dest : FilePath}

theorem Unpacks.checked {unpackIn : Disk FileName → Entry → Except String Bool × Disk FileName}
    (unpacks : Unpacks dest unpackIn) (confined : Confined dest start state.disk state.symlinks)
    (checked : checkEntry state item = .ok (some entry, next)) :
    Unpacked dest state.disk entry (unpackIn state.disk entry).1 (unpackIn state.disk entry).2 := by
  have isEntry := (check_entry_passed checked).1
  rw [isEntry] at checked
  exact unpacks state.disk entry confined.directory ⟨state, next, checked⟩

theorem hard_link_kind (isHard : entry.entryType = .link) : entry.kind = .hardLink := by
  unfold Entry.kind
  rw [isHard]

section Run

variable {unpackIn : Disk FileName → Entry → Except String Bool × Disk FileName} {dest : FilePath}
  {start : Disk FileName}
  (unpacks : Unpacks dest unpackIn)

include unpacks

theorem unpack_entry_confined {state : Unpacking} (item : Except String Entry)
    (confined : Confined dest start state.disk state.symlinks) :
    Confined dest start (unpackEntry unpackIn state item).2.disk
      (unpackEntry unpackIn state item).2.symlinks := by
  unfold unpackEntry
  cases checked : checkEntry state item with
  | error message => exact confined
  | ok outcome =>
      obtain ⟨entry, next⟩ := outcome
      cases entry with
      | none =>
          obtain ⟨sameDisk, sameLinks, -⟩ := check_entry_skipped checked
          dsimp only
          rw [sameDisk, sameLinks]
          exact confined
      | some entry =>
          have passed := (check_entry_passed checked).2
          have unpacked := unpacks.checked confined checked
          have kept := confined.unpacked passed unpacked
          dsimp only
          rw [passed.sameDisk]
          generalize unpackIn state.disk entry = answer at kept
          obtain ⟨result, after⟩ := answer
          cases result with
          | error message => exact kept
          | ok done => cases done <;> exact kept

theorem unpack_entries_confined {state : Unpacking} (items : List (Except String Entry))
    (confined : Confined dest start state.disk state.symlinks) :
    Confined dest start (unpackEntries unpackIn state items).2.disk
      (unpackEntries unpackIn state items).2.symlinks := by
  induction items generalizing state with
  | nil => exact confined
  | cons item rest ih =>
      have kept := unpack_entry_confined unpacks item confined
      unfold unpackEntries
      generalize unpackEntry unpackIn state item = round at kept
      obtain ⟨result, next⟩ := round
      cases result with
      | error message => exact kept
      | ok done => exact ih kept

end Run

def LinkedInside (dest : FilePath) (before : Disk FileName) (entry : Entry)
    (after : Disk FileName) : Prop :=
  ∃ source location inode, dest <+: source ∧ before.object source = some (.file inode) ∧
    Disk.Place before dest entry.names location ∧ after.object location = some (.file inode)

def HardLinksInside (unpackIn : Disk FileName → Entry → Except String Bool × Disk FileName)
    (dest : FilePath) (state : Unpacking) : List (Except String Entry) → Prop
  | [] => True
  | item :: rest =>
      (∀ entry next, checkEntry state item = .ok (some entry, next) → entry.entryType = .link →
        (unpackIn next.disk entry).1 = .ok true →
          LinkedInside dest next.disk entry (unpackIn next.disk entry).2) ∧
      ((unpackEntry unpackIn state item).1 = .ok () →
        HardLinksInside unpackIn dest (unpackEntry unpackIn state item).2 rest)

theorem Confined.linked {after : Disk FileName}
    (confined : Confined dest start state.disk state.symlinks) (passed : Passed state entry next)
    (isHard : entry.kind = .hardLink) (unpacked : Unpacked dest state.disk entry (.ok true) after) :
    LinkedInside dest state.disk entry after := by
  obtain ⟨location, place, stands⟩ := unpacked.done rfl passed.nonempty
  unfold Stands at stands
  rw [isHard] at stands
  obtain ⟨object, made, present⟩ := stands
  unfold Made at made
  rw [isHard] at made
  obtain ⟨target, source, named, isSource, same, noDirectory⟩ := made
  have below := hard_link_source confined passed isHard named isSource
  cases object with
  | directory => exact absurd rfl noDirectory
  | link target => exact absurd ⟨target, same⟩ below.2.2
  | file inode => exact ⟨source, location, inode, below.1, same, place, present⟩

theorem hard_links_inside {unpackIn : Disk FileName → Entry → Except String Bool × Disk FileName}
    {dest : FilePath} {start : Disk FileName} (unpacks : Unpacks dest unpackIn) {state : Unpacking}
    (items : List (Except String Entry))
    (confined : Confined dest start state.disk state.symlinks) :
    HardLinksInside unpackIn dest state items := by
  induction items generalizing state with
  | nil => trivial
  | cons item rest ih =>
      constructor
      · intro entry next checked isHard done
        have passed := (check_entry_passed checked).2
        have unpacked := unpacks.checked confined checked
        rw [passed.sameDisk] at done ⊢
        rw [done] at unpacked
        exact confined.linked passed (hard_link_kind isHard) unpacked
      · intro _
        exact ih (unpack_entry_confined unpacks item confined)

structure Fresh (dest : FilePath) (disk : Disk FileName) : Prop where
  below : dest ≠ []
  parent : disk.object dest.dropLast = some .directory
  free : disk.object dest = none ∨
    disk.object dest = some .directory ∧ ∀ name, disk.object (dest ++ [name]) = none

variable {disk : Disk FileName}

theorem Fresh.empty (fresh : Fresh dest disk) {names : FilePath} (nonempty : names ≠ []) :
    disk.object (dest ++ names) = none := by
  by_contra present
  cases names with
  | nil => exact nonempty rfl
  | cons name rest =>
      rcases fresh.free with absent | ⟨-, free⟩
      · have above := disk.directory_above present (by simp)
        rw [absent] at above
        cases above
      · have whole : dest ++ name :: rest = dest ++ [name] ++ rest := by simp
        rw [whole] at present
        by_cases last : rest = []
        · rw [last, List.append_nil] at present
          exact present (free name)
        · have above := disk.directory_above present last
          rw [free name] at above
          cases above

/-- Only the last directory of a path is made if the others are there. -/
theorem create_dir_all_last {front rest : FilePath}
    (above : ∀ part, part <+: rest → part ≠ rest → disk.object (front ++ part) = some .directory)
    (free : disk.object (front ++ rest) = none ∨ disk.object (front ++ rest) = some .directory) :
    ∃ made, createDirAll disk front rest = (.ok (), made) ∧ made.content = disk.content ∧
      (∀ location, location ≠ front ++ rest → made.object location = disk.object location) ∧
      (rest ≠ [] → made.object (front ++ rest) = some .directory) := by
  induction rest generalizing front with
  | nil => exact ⟨disk, rfl, rfl, fun _ _ => rfl, fun nonempty => absurd rfl nonempty⟩
  | cons name rest ih =>
      have whole : front ++ name :: rest = front ++ [name] ++ rest := by simp
      rw [whole] at free ⊢
      unfold createDirAll
      by_cases there : disk.object (front ++ [name]) = some .directory
      · rw [if_pos there]
        have later : ∀ part, part <+: rest → part ≠ rest →
            disk.object (front ++ [name] ++ part) = some .directory := by
          intro part within proper
          rw [List.append_assoc]
          exact above (name :: part) (List.cons_prefix_cons.mpr ⟨rfl, within⟩) (by simpa using proper)
        obtain ⟨made, ok, contents, others, last⟩ := ih later free
        refine ⟨made, ok, contents, others, ?_⟩
        intro _
        by_cases nothing : rest = []
        · have sameObject : made = disk := by
            rw [nothing] at ok
            exact (Prod.mk.inj ok).2.symm
          rw [nothing, List.append_nil, sameObject]
          exact there
        · exact last nothing
      · rw [if_neg there]
        have nothing : rest = [] := by
          by_contra more
          apply there
          exact above [name] ⟨rest, rfl⟩ (by simpa using Ne.symm more)
        rw [nothing, List.append_nil] at free ⊢
        have absent := free.resolve_right there
        have parent := above [] List.nil_prefix (by simp)
        rw [List.append_nil] at parent
        have can : disk.CanHold (front ++ [name]) := by
          refine ⟨by simp, ?_, there⟩
          rw [List.dropLast_concat]
          exact parent
        rw [dif_pos ⟨can, absent⟩]
        refine ⟨_, rfl, rfl, ?_, ?_⟩
        · intro location other
          exact if_neg other
        · intro _
          exact if_pos rfl

theorem create_dir_all_fresh (fresh : Fresh dest disk) :
    ∃ made, createDirAll disk [] dest = (.ok (), made) ∧ made.content = disk.content ∧
      (∀ location, location ≠ dest → made.object location = disk.object location) ∧
      made.object dest = some .directory := by
  have above : ∀ part, part <+: dest → part ≠ dest → disk.object ([] ++ part) = some .directory := by
    intro part within proper
    rcases List.eq_nil_or_concat dest with nothing | ⟨parent, name, whole⟩
    · exact absurd nothing fresh.below
    · rw [List.concat_eq_append] at whole
      have isParent := fresh.parent
      rw [whole] at within proper
      rw [whole, List.dropLast_concat] at isParent
      rcases List.prefix_concat_iff.mp within with same | ⟨rest, inner⟩
      · exact absurd same proper
      · rw [List.nil_append]
        by_cases nothing : rest = []
        · rw [nothing, List.append_nil] at inner
          rw [inner]
          exact isParent
        · rw [← inner] at isParent
          exact disk.directory_above (by simp [isParent]) nothing
  have free : disk.object ([] ++ dest) = none ∨ disk.object ([] ++ dest) = some .directory := by
    rcases fresh.free with absent | ⟨there, -⟩
    · exact Or.inl absent
    · exact Or.inr there
  obtain ⟨made, ok, contents, others, last⟩ := create_dir_all_last above free
  exact ⟨made, ok, contents, others, last fresh.below⟩

theorem fresh_confined {made : Disk FileName} (fresh : Fresh dest disk)
    (contents : made.content = disk.content)
    (others : ∀ location, location ≠ dest → made.object location = disk.object location)
    (there : made.object dest = some .directory) : Confined dest disk made [] := by
  have inside : ∀ location object, dest <+: location → made.object location = some object →
      object = .directory := by
    intro location object within present
    obtain ⟨names, whole⟩ := within
    rw [← whole] at present
    by_cases top : names = []
    · rw [top, List.append_nil, there] at present
      exact (Option.some.inj present).symm
    · rw [others _ (by simpa using top), fresh.empty top] at present
      cases present
  constructor
  · exact there
  · intro location outside
    apply others
    intro same
    rw [same] at outside
    exact outside List.prefix_rfl
  · intro location inode _ _
    rw [contents]
  · intro inner outer inode within _ isInner
    cases inside inner _ within isInner
  · intro names isLink
    obtain ⟨target, present⟩ := isLink
    cases inside _ _ (List.prefix_append _ _) present

/-- Outside the destination every object is what it was, with the same contents, and none of the
files there stands inside too. -/
structure WroteInside (dest : FilePath) (before after : Disk FileName) : Prop where
  objects : ∀ location, ¬dest <+: location → after.object location = before.object location
  contents : ∀ location inode, ¬dest <+: location → before.object location = some (.file inode) →
    after.content inode = before.content inode
  apart : ∀ inner outer inode, dest <+: inner → ¬dest <+: outer →
    after.object inner = some (.file inode) → after.object outer ≠ some (.file inode)

theorem Confined.wrote {symlinks : List FilePath} (confined : Confined dest start disk symlinks) :
    WroteInside dest start disk where
  objects := confined.outside
  contents := confined.contents
  apart := confined.apart

theorem Fresh.untouched (fresh : Fresh dest disk) : WroteInside dest disk disk where
  objects _ _ := rfl
  contents _ _ _ _ := rfl
  apart inner outer inode within _ isInner := by
    obtain ⟨names, whole⟩ := within
    rw [← whole] at isInner
    by_cases top : names = []
    · rw [top, List.append_nil] at isInner
      rcases fresh.free with absent | ⟨there, -⟩
      · rw [absent] at isInner
        cases isInner
      · rw [there] at isInner
        cases isInner
    · rw [fresh.empty top] at isInner
      cases isInner

/-- Whatever an archive holds, and however far its extraction comes, nothing outside a fresh
destination is created or changed, and every hard link is one file with an object inside. -/
theorem extraction_confined
    {unpackIn : Disk FileName → Entry → Except String Bool × Disk FileName} {dest : FilePath}
    (unpacks : Unpacks dest unpackIn) {disk : Disk FileName} (fresh : Fresh dest disk)
    (archive : ArchiveFile) :
    WroteInside dest disk (extractArchive unpackIn archive dest disk).2 ∧
      ∀ items, HardLinksInside unpackIn dest ⟨[], 0, 0, (createDirAll disk [] dest).2⟩ items := by
  obtain ⟨made, ok, contents, others, there⟩ := create_dir_all_fresh fresh
  have confined : Confined dest disk made [] := fresh_confined fresh contents others there
  have unpacked (entries : Except String (List (Except String Entry))) :
      WroteInside dest disk (unpack unpackIn dest entries disk).2 := by
    unfold unpack
    rw [ok]
    cases entries with
    | error message => exact confined.wrote
    | ok items =>
        have kept := @unpack_entries_confined unpackIn dest disk unpacks ⟨[], 0, 0, made⟩ items
          confined
        exact kept.wrote
  constructor
  · unfold extractArchive
    cases openArchive archive with
    | error message => exact fresh.untouched
    | ok magic =>
        dsimp only
        split_ifs
        · exact unpacked archive.gunzipped
        · exact unpacked archive.plain
  · intro items
    rw [ok]
    exact @hard_links_inside unpackIn dest disk unpacks ⟨[], 0, 0, made⟩ items confined

theorem file_small {inode : Nat} (stands : disk.object path = some (.file inode)) (other : Nat)
    (same : (Object.file inode : Object FileName) = .file other) : other < disk.next := by
  rw [← Object.file.inj same]
  exact disk.bounded path inode stands

def fileAt (disk : Disk FileName) (path : FilePath) :
    Option { inode : Nat // disk.object path = some (.file inode) } :=
  match disk.object path with
  | some (.file inode) => some ⟨inode, rfl⟩
  | some .directory | some (.link _) | none => none

/-- The call where the parents are there, none of them a link. -/
def makeEntry (dest : FilePath) (disk : Disk FileName) (entry : Entry)
    (can : disk.CanHold (dest ++ entry.names)) : Except String Bool × Disk FileName :=
  match entry.kind with
  | .file => (.ok true, disk.putFile (dest ++ entry.names) entry.data can)
  | .directory =>
      if disk.object (dest ++ entry.names) = none then
        (.ok true, disk.put (dest ++ entry.names) .directory can disk.directory_small)
      else (.error "File exists", disk)
  | .symlink =>
      match entry.linkName with
      | .ok (some target) => (.ok true, disk.put (dest ++ entry.names) (.link (linkText target)) can
          (disk.link_small _))
      | .ok none | .error _ => (.error "no link name", disk)
  | .hardLink =>
      match entry.linkName with
      | .ok (some target) =>
          match fileAt disk (dest ++ pathNames target) with
          | some source => (.ok true, disk.put (dest ++ entry.names) (.file source.1) can
              (file_small source.2))
          | none => (.error "No such file", disk)
      | .ok none | .error _ => (.error "no link name", disk)
  | .other => (.error "unsupported", disk)

def unpackPlain (dest : FilePath) (disk : Disk FileName) (entry : Entry) :
    Except String Bool × Disk FileName :=
  if can : disk.CanHold (dest ++ entry.names) ∧ entry.names ≠ [] then
    makeEntry dest disk entry can.1
  else if entry.kind = .directory ∧ entry.names ≠ [] ∧
      disk.object (dest ++ entry.names) = some .directory then (.ok true, disk)
  else (.error "unsupported", disk)

section Plain

variable {dest : FilePath} {disk after : Disk FileName} {entry : Entry}

theorem unpacked_unchanged (dest : FilePath) (disk : Disk FileName) (entry : Entry)
    (message : String) : Unpacked dest disk entry (.error message) disk where
  onTheWay _ changed := absurd rfl changed
  parents _ changed := absurd rfl changed
  last _ _ changed := absurd rfl changed
  contents _ changed := absurd rfl changed
  done impossible := by cases impossible

theorem plain_above {names : FilePath} (present : disk.object (dest ++ names).dropLast =
    some .directory) : ∀ front, front ≠ [] → front <+: names → front ≠ names →
      ¬disk.isLink (dest ++ front) := by
  intro front _ within proper isLink
  obtain ⟨target, isTarget⟩ := isLink
  obtain ⟨rest, whole⟩ := within
  have more : rest ≠ [] := by
    intro nothing
    rw [nothing, List.append_nil] at whole
    exact proper whole
  have above : (dest ++ names).dropLast = dest ++ front ++ rest.dropLast := by
    rw [← whole, ← List.append_assoc, List.dropLast_append_of_ne_nil more]
  rw [above] at present
  have isDirectory : disk.object (dest ++ front) = some .directory := by
    by_cases last : rest.dropLast = []
    · rw [last, List.append_nil] at present
      exact present
    · exact disk.directory_above (by rw [present]; simp) last
  rw [isDirectory] at isTarget
  cases isTarget

theorem unpacked_put {object : Object FileName} (can : disk.CanHold (dest ++ entry.names))
    (nonempty : entry.names ≠ [])
    (objects : after.object = disk.putObject (dest ++ entry.names) object)
    (made : Made dest disk entry object)
    (contents : ∀ inode, after.content inode ≠ disk.content inode → disk.next ≤ inode)
    (stands : Stands dest disk entry (dest ++ entry.names) after) :
    Unpacked dest disk entry (.ok true) after := by
  have plain := plain_above can.2.1
  have place (location : FilePath) : Disk.Place disk dest entry.names location ↔
      location = dest ++ entry.names := by
    rw [Disk.place_plain plain]
    simp [nonempty]
  have here (location : FilePath) (changed : after.object location ≠ disk.object location) :
      location = dest ++ entry.names := by
    by_contra other
    rw [objects] at changed
    exact changed (if_neg other)
  constructor
  · intro location changed
    exact ⟨entry.names, List.prefix_rfl, (place location).mpr (here location changed)⟩
  · intro location changed noPlace
    exact absurd ((place location).mpr (here location changed)) noPlace
  · intro location other changed _ present
    rw [here location changed, objects] at present
    unfold Disk.putObject at present
    rw [if_pos rfl] at present
    rw [← Option.some.inj present]
    exact made
  · intro inode changed
    exact Or.inl (contents inode changed)
  · intro _ _
    exact ⟨dest ++ entry.names, (place _).mpr rfl, stands⟩

theorem place_standing {names : FilePath} (nonempty : names ≠ [])
    (present : disk.object (dest ++ names) ≠ none) :
    Disk.Place disk dest names (dest ++ names) := by
  rcases List.eq_nil_or_concat names with nothing | ⟨front, name, whole⟩
  · exact absurd nothing nonempty
  · rw [List.concat_eq_append] at whole
    have above : disk.object (dest ++ names).dropLast = some .directory := by
      rw [whole, ← List.append_assoc] at present ⊢
      rw [List.dropLast_concat]
      exact disk.closed _ _ present
    exact (Disk.place_plain (plain_above above)).mpr ⟨nonempty, rfl⟩

theorem dest_directory (present : disk.object (dest ++ entry.names).dropLast = some .directory)
    (nonempty : entry.names ≠ []) : disk.object dest = some .directory := by
  rw [List.dropLast_append_of_ne_nil nonempty] at present
  by_cases last : entry.names.dropLast = []
  · rw [last, List.append_nil] at present
    exact present
  · exact disk.directory_above (by rw [present]; simp) last

theorem make_entry_unpacked (can : disk.CanHold (dest ++ entry.names))
    (nonempty : entry.names ≠ []) :
    Unpacked dest disk entry (makeEntry dest disk entry can).1 (makeEntry dest disk entry can).2 := by
  have failed (message : String) := unpacked_unchanged dest disk entry message
  have here (object : Object FileName) : disk.putObject (dest ++ entry.names) object
      (dest ++ entry.names) = some object := if_pos rfl
  unfold makeEntry
  cases kind : entry.kind with
  | file =>
      apply @unpacked_put dest disk _ entry (.file disk.next) can nonempty rfl
      · simp [Made, kind]
      · intro inode changed
        by_contra small
        exact changed (if_neg (by omega))
      · simp only [Stands, kind]
        exact ⟨disk.next, here _⟩
  | directory =>
      dsimp only
      split_ifs with absent
      · apply @unpacked_put dest disk _ entry (.directory) can nonempty rfl
        · simp [Made, kind]
        · intro inode changed
          exact absurd rfl changed
        · simp only [Stands, kind]
          exact Or.inl ⟨absent, here _⟩
      · exact failed _
  | symlink =>
      cases named : entry.linkName with
      | error message => exact failed _
      | ok text =>
          cases text with
          | none => exact failed _
          | some target =>
              have made : Made dest disk entry (.link (linkText target)) := by
                simp only [Made, kind]
                exact ⟨target, named, rfl⟩
              apply @unpacked_put dest disk _ entry (.link (linkText target)) can nonempty rfl made
              · intro inode changed
                exact absurd rfl changed
              · simp only [Stands, kind]
                exact ⟨_, made, here _⟩
  | hardLink =>
      cases named : entry.linkName with
      | error message => exact failed _
      | ok text =>
          cases text with
          | none => exact failed _
          | some target =>
              dsimp only
              cases found : fileAt disk (dest ++ pathNames target) with
              | none => exact failed _
              | some source =>
                  obtain ⟨inode, isFile⟩ := source
                  have proper : pathNames target ≠ [] := by
                    intro top
                    rw [top, List.append_nil, dest_directory can.2.1 nonempty] at isFile
                    cases isFile
                  have made : Made dest disk entry (.file inode) := by
                    simp only [Made, kind]
                    exact ⟨target, _, named, place_standing proper (by rw [isFile]; simp), isFile,
                      by simp⟩
                  apply @unpacked_put dest disk _ entry (.file inode) can nonempty rfl made
                  · intro inode changed
                    exact absurd rfl changed
                  · simp only [Stands, kind]
                    exact ⟨_, made, here _⟩
  | other => exact failed _

theorem unpacked_standing (isDirectory : entry.kind = .directory) (nonempty : entry.names ≠ [])
    (there : disk.object (dest ++ entry.names) = some .directory) :
    Unpacked dest disk entry (.ok true) disk where
  onTheWay _ changed := absurd rfl changed
  parents _ changed := absurd rfl changed
  last _ _ changed := absurd rfl changed
  contents _ changed := absurd rfl changed
  done _ _ := by
    refine ⟨dest ++ entry.names, place_standing nonempty (by simp [there]), ?_⟩
    unfold Stands
    rw [isDirectory]
    exact Or.inr ⟨by simp [there], rfl⟩

theorem unpack_plain_unpacks (dest : FilePath) : Unpacks dest (unpackPlain dest) := by
  intro disk entry _ _
  unfold unpackPlain
  by_cases can : disk.CanHold (dest ++ entry.names) ∧ entry.names ≠ []
  · rw [dif_pos can]
    exact make_entry_unpacked can.1 can.2
  · rw [dif_neg can]
    split_ifs with standing
    · exact unpacked_standing standing.1 standing.2.1 standing.2.2
    · exact unpacked_unchanged dest disk entry _

end Plain

def emptyDisk : Disk FileName where
  object path := if path = [] then some .directory else none
  content _ := []
  next := 0
  root := rfl
  closed path name present := by simp at present
  bounded path inode isFile := by
    split_ifs at isFile
    cases isFile

def demoEntry (path : String) (entryType : EntryType) (linkName : Option String) :
    Except String Entry :=
  .ok ⟨.ok path, entryType, false, .ok linkName, some 0, []⟩

def demoArchive (items : List (Except String Entry)) : ArchiveFile :=
  ⟨.ok (), .ok [0x61, 0x70], .ok (), .ok items, .error "not gzip"⟩

def demoItems : List (Except String Entry) :=
  [demoEntry "app/" .directory none, demoEntry "app/Dockerfile" .regular none,
    demoEntry "app/link" .symlink (some "Dockerfile"),
    demoEntry "app/hard" .link (some "app/Dockerfile"), demoEntry "data/" .regular none]

def demoDest : FilePath := [['o', 'u', 't']]

theorem demo_fresh : Fresh demoDest emptyDisk where
  below := by decide
  parent := rfl
  free := Or.inl rfl

theorem demo_extraction_confined :
    WroteInside demoDest emptyDisk
        (extractArchive (unpackPlain demoDest) (demoArchive demoItems) demoDest emptyDisk).2 ∧
      ∀ items, HardLinksInside (unpackPlain demoDest) demoDest
        ⟨[], 0, 0, (createDirAll emptyDisk [] demoDest).2⟩ items :=
  extraction_confined (unpack_plain_unpacks demoDest) demo_fresh (demoArchive demoItems)

end Containr.Api.Archives
