import Containr.Api.Extraction
import Containr.Files.Walks

/-!
# The links of an extracted archive

Each target is checked as text, so a `..` is taken to undo the name before it. Where that name is
a link the kernel goes up from the target of the link instead.
-/

namespace Containr.Api.Archives

open Containr.Effect Containr.Files

def readable : Except String (List (Except String Entry)) → List (Except String Entry)
  | .ok items => items
  | .error _ => []

def itemsOf (archive : ArchiveFile) : List (Except String Entry) :=
  readable (if archive.magic = .ok [0x1f, 0x8b] then archive.gunzipped else archive.plain)

abbrev Listing := FilePath → Option (Node FileName)

def emptyListing : Listing := fun names => if names = [] then some .directory else none

def listed (before : Option (Node FileName)) (entry : Entry) : Option (Node FileName) :=
  match entry.kind with
  | .file | .hardLink => some .file
  | .directory => if before = none then some .directory else before
  | .symlink =>
      match entry.linkName with
      | .ok (some target) => some (.link (linkText target))
      | _ => before
  | .other => before

def listEntry (listing : Listing) (entry : Entry) : Listing := fun names =>
  if entry.names = [] then listing names
  else if names = entry.names then listed (listing names) entry
  else if names.isPrefixOf entry.names ∧ listing names = none then some .directory
  else listing names

def listItem (listing : Listing) : Except String Entry → Listing
  | .ok entry => listEntry listing entry
  | .error _ => listing

def listingOf (items : List (Except String Entry)) : Listing := items.foldl listItem emptyListing

structure Mirrors (dest : FilePath) (disk : Disk FileName) (listing : Listing) : Prop where
  directory : disk.object dest = some .directory
  same : ∀ names, (disk.object (dest ++ names)).map Object.node = listing names
  relative : ∀ names target, listing names = some (.link target) → target.absolute = false

section Step

variable {dest : FilePath} {start after : Disk FileName} {state next : Unpacking} {entry : Entry}
  {listing : Listing}

theorem list_entry_skipped (skipped : entry.names = []) : listEntry listing entry = listing := by
  funext names
  exact if_pos skipped

theorem Mirrors.last (mirrors : Mirrors dest state.disk listing)
    (confined : Confined dest start state.disk state.symlinks)
    (passed : Passed state entry next) (unpacked : Unpacked dest state.disk entry (.ok true) after) :
    (after.object (dest ++ entry.names)).map Object.node =
      listed (listing entry.names) entry := by
  obtain ⟨location, place, stands⟩ := unpacked.done rfl passed.nonempty
  rw [(entry_place confined passed location).mp place] at stands
  have before := mirrors.same entry.names
  unfold Stands at stands
  unfold listed
  cases kind : entry.kind with
  | file =>
      rw [kind] at stands
      obtain ⟨inode, present⟩ := stands
      rw [present]
      rfl
  | directory =>
      rw [kind] at stands
      dsimp only at stands ⊢
      rw [← before]
      rcases stands with ⟨absent, made⟩ | ⟨there, kept⟩
      · rw [absent, made]
        rfl
      · rw [kept]
        rw [if_neg]
        simpa using there
  | symlink =>
      rw [kind] at stands
      obtain ⟨object, made, present⟩ := stands
      unfold Made at made
      rw [kind] at made
      obtain ⟨target, named, isLink⟩ := made
      rw [present, named, isLink]
      rfl
  | hardLink =>
      obtain ⟨source, other, inode, -, -, otherPlace, present⟩ :=
        confined.linked passed kind unpacked
      rw [(entry_place confined passed other).mp otherPlace] at present
      rw [present]
      rfl
  | other => exact absurd kind passed.supported

theorem listed_present (passed : Passed state entry next) (before : Option (Node FileName)) :
    listed before entry ≠ none := by
  unfold listed
  cases kind : entry.kind with
  | file | hardLink => simp
  | directory =>
      dsimp only
      split_ifs with absent
      · simp
      · exact absent
  | symlink =>
      obtain ⟨target, named, -⟩ := passed.inside kind
      simp [named]
  | other => exact absurd kind passed.supported

theorem Mirrors.above (mirrors : Mirrors dest state.disk listing)
    (confined : Confined dest start state.disk state.symlinks)
    (passed : Passed state entry next) (unpacked : Unpacked dest state.disk entry (.ok true) after)
    {names : FilePath} (within : names <+: entry.names) (proper : names ≠ entry.names) :
    (after.object (dest ++ names)).map Object.node =
      if listing names = none then some .directory else listing names := by
  have before := mirrors.same names
  by_cases changed : after.object (dest ++ names) = state.disk.object (dest ++ names)
  · rw [changed, before]
    split_ifs with absent
    · obtain ⟨rest, whole⟩ := within
      have more : rest ≠ [] := by
        intro nothing
        rw [nothing, List.append_nil] at whole
        exact proper whole
      have present : after.object (dest ++ names ++ rest) ≠ none := by
        intro missing
        have last := mirrors.last confined passed unpacked
        rw [List.append_assoc, whole] at missing
        rw [missing] at last
        exact listed_present passed _ last.symm
      have isDirectory := after.directory_above present more
      rw [changed] at isDirectory
      rw [isDirectory, absent] at before
      cases before
    · rfl
  · have notPlace : ¬Disk.Place state.disk dest entry.names (dest ++ names) := by
      intro place
      have same := (entry_place confined passed _).mp place
      exact proper (List.append_cancel_left same)
    have made := unpacked.parents _ changed notPlace
    rw [made.1] at before
    rw [made.2, ← before]
    rfl

theorem list_entry_relative (passed : Passed state entry next)
    (relative : ∀ names target, listing names = some (.link target) → target.absolute = false) :
    ∀ names target, listEntry listing entry names = some (.link target) →
      target.absolute = false := by
  intro names target isLink
  unfold listEntry at isLink
  rw [if_neg passed.nonempty] at isLink
  split_ifs at isLink with here parent
  · unfold listed at isLink
    cases kind : entry.kind with
    | file | hardLink =>
        rw [kind] at isLink
        cases isLink
    | directory =>
        rw [kind] at isLink
        dsimp only at isLink
        split_ifs at isLink
        · cases isLink
        · exact relative names target isLink
    | symlink =>
        obtain ⟨text, named, isRelative, -⟩ := passed.inside kind
        rw [kind, named] at isLink
        have same : linkText text = target := Node.link.inj (Option.some.inj isLink)
        rw [← same]
        exact isRelative
    | other => exact absurd kind passed.supported
  · cases isLink
  · exact relative names target isLink

theorem Mirrors.unpacked (mirrors : Mirrors dest state.disk listing)
    (confined : Confined dest start state.disk state.symlinks)
    (passed : Passed state entry next) (unpacked : Unpacked dest state.disk entry (.ok true) after) :
    Mirrors dest after (listEntry listing entry) := by
  constructor
  · exact (confined.unpacked passed unpacked).directory
  · intro names
    unfold listEntry
    rw [if_neg passed.nonempty]
    by_cases here : names = entry.names
    · rw [if_pos here, here]
      exact mirrors.last confined passed unpacked
    · rw [if_neg here]
      by_cases within : names <+: entry.names
      · rw [mirrors.above confined passed unpacked within here]
        simp [within]
      · rw [if_neg (by simp [within]), ← mirrors.same names]
        apply congrArg
        by_contra changed
        obtain ⟨front, -, inEntry, below⟩ := changed_below confined passed unpacked changed
        rw [List.append_cancel_left below] at within
        exact within inEntry
  · exact list_entry_relative passed mirrors.relative

end Step

section Run

variable {unpackIn : Disk FileName → Entry → Except String Bool × Disk FileName} {dest : FilePath}
  {start : Disk FileName}
  (unpacks : Unpacks dest unpackIn)

include unpacks

theorem unpack_entry_mirrors {state : Unpacking} {item : Except String Entry} {listing : Listing}
    (mirrors : Mirrors dest state.disk listing)
    (confined : Confined dest start state.disk state.symlinks)
    (accepted : (unpackEntry unpackIn state item).1 = .ok ()) :
    Mirrors dest (unpackEntry unpackIn state item).2.disk (listItem listing item) := by
  unfold unpackEntry at accepted ⊢
  cases checked : checkEntry state item with
  | error message =>
      rw [checked] at accepted
      cases accepted
  | ok outcome =>
      obtain ⟨entry, next⟩ := outcome
      rw [checked] at accepted
      cases entry with
      | none =>
          obtain ⟨sameDisk, -, entry, isEntry, skipped⟩ := check_entry_skipped checked
          rw [isEntry]
          dsimp only [listItem]
          rw [sameDisk, list_entry_skipped skipped]
          exact mirrors
      | some entry =>
          obtain ⟨isEntry, passed⟩ := check_entry_passed checked
          have unpacked := unpacks.checked confined checked
          rw [isEntry]
          dsimp only [listItem] at accepted ⊢
          rw [passed.sameDisk] at accepted ⊢
          generalize unpackIn state.disk entry = answer at unpacked accepted
          obtain ⟨result, after⟩ := answer
          cases result with
          | error message => cases accepted
          | ok done =>
              cases done with
              | false => cases accepted
              | true => exact mirrors.unpacked confined passed unpacked

theorem unpack_entries_mirrors {state : Unpacking} {items : List (Except String Entry)}
    {listing : Listing} (mirrors : Mirrors dest state.disk listing)
    (confined : Confined dest start state.disk state.symlinks)
    (accepted : (unpackEntries unpackIn state items).1 = .ok ()) :
    Mirrors dest (unpackEntries unpackIn state items).2.disk (items.foldl listItem listing) := by
  induction items generalizing state listing with
  | nil => exact mirrors
  | cons item rest ih =>
      have kept := unpack_entry_confined unpacks item confined
      have mirrored := @unpack_entry_mirrors _ _ _ unpacks state item _ mirrors confined
      unfold unpackEntries at accepted ⊢
      generalize unpackEntry unpackIn state item = round at kept mirrored accepted
      obtain ⟨result, next⟩ := round
      cases result with
      | error message => cases accepted
      | ok done => exact ih (mirrored rfl) kept accepted

omit unpacks in
theorem open_archive_magic {archive : ArchiveFile} {magic : List UInt8}
    (opened : openArchive archive = .ok magic) : archive.magic = .ok magic := by
  unfold openArchive at opened
  obtain ⟨_, _, rest⟩ := except_bind_ok opened
  obtain ⟨read, isRead, rest⟩ := except_bind_ok rest
  obtain ⟨_, _, rest⟩ := except_bind_ok rest
  rw [← Except.ok.inj rest]
  exact map_error_ok isRead

theorem extraction_mirrors (fresh : Fresh dest start) {archive : ArchiveFile}
    (accepted : (extractArchive unpackIn archive dest start).1 = .ok ()) :
    Mirrors dest (extractArchive unpackIn archive dest start).2
      (listingOf (itemsOf archive)) := by
  obtain ⟨made, ok, contents, others, there⟩ := create_dir_all_fresh fresh
  have confined := fresh_confined fresh contents others there
  have empty : Mirrors dest made emptyListing := by
    have same : ∀ names, (made.object (dest ++ names)).map Object.node = emptyListing names := by
      intro names
      unfold emptyListing
      split_ifs with top
      · rw [top, List.append_nil, there]
        rfl
      · rw [others _ (by simpa using top), fresh.empty top]
        rfl
    constructor
    · exact there
    · exact same
    · intro names target isLink
      unfold emptyListing at isLink
      split_ifs at isLink
      cases isLink
  have unpacked (entries : Except String (List (Except String Entry)))
      (whole : (unpack unpackIn dest entries start).1 = .ok ()) :
      Mirrors dest (unpack unpackIn dest entries start).2
        (listingOf (readable entries)) := by
    unfold unpack at whole ⊢
    rw [ok] at whole ⊢
    cases entries with
    | error message => cases whole
    | ok items => exact @unpack_entries_mirrors _ _ _ unpacks ⟨[], 0, 0, made⟩ _ _ empty confined whole
  unfold extractArchive at accepted ⊢
  unfold itemsOf
  cases opened : openArchive archive with
  | error message =>
      rw [opened] at accepted
      cases accepted
  | ok magic =>
      have isMagic := open_archive_magic opened
      rw [opened] at accepted
      rw [isMagic]
      dsimp only at accepted ⊢
      by_cases gzip : magic = [0x1f, 0x8b]
      · rw [if_pos gzip] at accepted ⊢
        rw [if_pos (by rw [gzip])]
        exact unpacked _ accepted
      · rw [if_neg gzip] at accepted ⊢
        rw [if_neg (by simpa using gzip)]
        exact unpacked _ accepted

end Run

/-- No link below the destination leads out of it, not even on the way. -/
def LinksStayInside (dest : FilePath) (disk : Disk FileName) : Prop :=
  ∀ names target position, disk.object (dest ++ names) = some (.link target) →
    Visits disk.tree.node ⟨Tree.origin (dest ++ names).dropLast target, target.segments⟩ position →
      dest <+: position.location

/-- The text of a link with the links on its way replaced by theirs, as far as the listing leads:
what is written so far, from the root of the archive, and what is left. -/
inductive WrittenOut (listing : Listing) (names : FilePath) (target : Target FileName) :
    List Path.Component → List (Segment FileName) → Prop
  | text : WrittenOut listing names target (names.dropLast.map .normal) target.segments
  | current {front : List Path.Component} {rest : List (Segment FileName)}
      (so : WrittenOut listing names target front (.current :: rest)) :
      WrittenOut listing names target (front ++ [.curDir]) rest
  | parent {front : List Path.Component} {rest : List (Segment FileName)}
      (so : WrittenOut listing names target front (.parent :: rest)) :
      WrittenOut listing names target (front ++ [.parentDir]) rest
  | directory {front : List Path.Component} {rest : List (Segment FileName)} {name : FileName}
      {place : FilePath} (so : WrittenOut listing names target front (.name name :: rest))
      (resolved : resolveInsideRoot front = some place)
      (there : listing (place ++ [name]) = some .directory) :
      WrittenOut listing names target (front ++ [.normal name]) rest
  | file {front : List Path.Component} {name : FileName} {place : FilePath}
      (so : WrittenOut listing names target front [.name name])
      (resolved : resolveInsideRoot front = some place)
      (there : listing (place ++ [name]) = some .file) :
      WrittenOut listing names target (front ++ [.normal name]) []
  | link {front : List Path.Component} {rest : List (Segment FileName)} {name : FileName}
      {place : FilePath} {inner : Target FileName}
      (so : WrittenOut listing names target front (.name name :: rest))
      (resolved : resolveInsideRoot front = some place)
      (there : listing (place ++ [name]) = some (.link inner)) :
      WrittenOut listing names target front (inner.segments ++ rest)

def WrittenOutInside (listing : Listing) : Prop :=
  ∀ names target front rest, listing names = some (.link target) →
    WrittenOut listing names target front rest → (resolveInsideRoot front).isSome = true

theorem resolve_inside_root_concat (front : List Path.Component) (last : Path.Component) :
    resolveInsideRoot (front ++ [last]) = (resolveInsideRoot front).bind fun place =>
      resolveInsideRoot.go place [last] := by
  have loop : ∀ (parts : List Path.Component) (place : FilePath),
      resolveInsideRoot.go place (parts ++ [last]) =
        (resolveInsideRoot.go place parts).bind fun place => resolveInsideRoot.go place [last] := by
    intro parts
    induction parts with
    | nil =>
        intro place
        rfl
    | cons part rest ih =>
        intro place
        cases part with
        | normal part => exact ih _
        | curDir => exact ih place
        | rootDir => rfl
        | parentDir =>
            simp only [List.cons_append, resolveInsideRoot.go]
            split_ifs with top
            · rfl
            · exact ih _
  exact loop front []

theorem resolve_inside_root_names (names : FilePath) :
    resolveInsideRoot (names.map .normal) = some names := by
  induction names using List.reverseRecOn with
  | nil => rfl
  | append_singleton rest last ih =>
      rw [List.map_append, List.map_singleton, resolve_inside_root_concat, ih]
      rfl

section Way

variable {dest : FilePath} {disk : Disk FileName} {listing : Listing}
  {names place : FilePath} {target : Target FileName} {front : List Path.Component}
  {rest : List (Segment FileName)}

theorem Mirrors.node (mirrors : Mirrors dest disk listing) (names : FilePath) :
    disk.tree.node (dest ++ names) = listing names := mirrors.same names

theorem Mirrors.link_object (mirrors : Mirrors dest disk listing)
    (isLink : listing names = some (.link target)) :
    disk.object (dest ++ names) = some (.link target) := by
  rw [← mirrors.same] at isLink
  obtain ⟨object, present, same⟩ := Option.map_eq_some_iff.mp isLink
  rw [present]
  cases object with
  | directory | file inode => cases same
  | link other => rw [Node.link.inj same]

theorem drop_last_below (nonempty : names ≠ []) :
    (dest ++ names).dropLast = dest ++ names.dropLast := List.dropLast_append_of_ne_nil nonempty

theorem Mirrors.link_below (mirrors : Mirrors dest disk listing)
    (isLink : listing names = some (.link target)) :
    Tree.origin (dest ++ names).dropLast target = dest ++ names.dropLast := by
  have nonempty : names ≠ [] := by
    intro top
    rw [← mirrors.same, top, List.append_nil, mirrors.directory] at isLink
    cases isLink
  unfold Tree.origin
  rw [mirrors.relative names target isLink, drop_last_below nonempty]
  rfl

theorem WrittenOut.visits (mirrors : Mirrors dest disk listing)
    (so : WrittenOut listing names target front rest)
    (resolved : resolveInsideRoot front = some place) :
    Visits disk.tree.node ⟨dest ++ names.dropLast, target.segments⟩ ⟨dest ++ place, rest⟩ := by
  induction so generalizing place with
  | text =>
      rw [resolve_inside_root_names] at resolved
      rw [← Option.some.inj resolved]
      exact .refl
  | current so ih =>
      rw [resolve_inside_root_concat] at resolved
      obtain ⟨before, isBefore, same⟩ := Option.bind_eq_some_iff.mp resolved
      rw [← Option.some.inj same]
      exact (ih isBefore).tail (.current _ _)
  | parent so ih =>
      rw [resolve_inside_root_concat] at resolved
      obtain ⟨before, isBefore, same⟩ := Option.bind_eq_some_iff.mp resolved
      simp only [resolveInsideRoot.go] at same
      split_ifs at same with top
      have nonempty : before ≠ [] := by simpa using top
      rw [← Option.some.inj same, ← drop_last_below nonempty]
      exact (ih isBefore).tail (.parent _ _)
  | directory so isBefore there ih =>
      rw [resolve_inside_root_concat, isBefore] at resolved
      rw [← Option.some.inj resolved]
      rw [← mirrors.node, ← List.append_assoc] at there
      rw [← List.append_assoc]
      exact (ih isBefore).tail (.directory _ there)
  | file so isBefore there ih =>
      rw [resolve_inside_root_concat, isBefore] at resolved
      rw [← Option.some.inj resolved]
      rw [← mirrors.node, ← List.append_assoc] at there
      rw [← List.append_assoc]
      exact (ih isBefore).tail (.file there)
  | link so isBefore there ih =>
      rw [isBefore] at resolved
      have same := Option.some.inj resolved
      have relative := mirrors.relative _ _ there
      rw [← mirrors.node, ← List.append_assoc, same] at there
      rw [same] at isBefore
      have step := (ih isBefore).tail (.link _ there)
      rw [Tree.origin, relative] at step
      exact step

theorem visits_written_out (mirrors : Mirrors dest disk listing)
    (inside : ∀ front rest, WrittenOut listing names target front rest →
      (resolveInsideRoot front).isSome = true) {position : Position FileName}
    (visits : Visits disk.tree.node ⟨dest ++ names.dropLast, target.segments⟩ position) :
    ∃ front place, WrittenOut listing names target front position.rest ∧
      resolveInsideRoot front = some place ∧ position.location = dest ++ place := by
  induction visits with
  | refl => exact ⟨_, _, .text, resolve_inside_root_names _, rfl⟩
  | tail _ step ih =>
      obtain ⟨front, place, so, resolved, isPlace⟩ := ih
      cases step with
      | current location rest =>
          have next := WrittenOut.current so
          exact ⟨_, place, next, by rw [resolve_inside_root_concat, resolved]; rfl, isPlace⟩
      | parent location rest =>
          have next := WrittenOut.parent so
          have some := inside _ _ next
          rw [resolve_inside_root_concat, resolved] at some
          simp only [Option.bind_some, resolveInsideRoot.go] at some
          split_ifs at some with top
          · cases some
          have nonempty : place ≠ [] := by simpa using top
          refine ⟨_, place.dropLast, next, ?_, ?_⟩
          · rw [resolve_inside_root_concat, resolved]
            simp [resolveInsideRoot.go, nonempty]
          · dsimp only at isPlace ⊢
            rw [isPlace, drop_last_below nonempty]
      | @directory location name rest there =>
          dsimp only at isPlace
          rw [isPlace, List.append_assoc, mirrors.node] at there
          have next := WrittenOut.directory so resolved there
          have resolvedNext : resolveInsideRoot (front ++ [.normal name]) = some (place ++ [name]) := by
            rw [resolve_inside_root_concat, resolved]
            rfl
          exact ⟨_, _, next, resolvedNext, by rw [isPlace, List.append_assoc]⟩
      | @file location name there =>
          dsimp only at isPlace
          rw [isPlace, List.append_assoc, mirrors.node] at there
          have next := WrittenOut.file so resolved there
          have resolvedNext : resolveInsideRoot (front ++ [.normal name]) = some (place ++ [name]) := by
            rw [resolve_inside_root_concat, resolved]
            rfl
          exact ⟨_, _, next, resolvedNext, by rw [isPlace, List.append_assoc]⟩
      | @link location name inner rest there =>
          dsimp only at isPlace
          rw [isPlace, List.append_assoc, mirrors.node] at there
          have relative := mirrors.relative _ _ there
          have next := WrittenOut.link so resolved there
          have isOrigin : Tree.origin (dest ++ place) inner = dest ++ place :=
            if_neg (by simp [relative])
          exact ⟨_, _, next, resolved, by rw [isPlace, isOrigin]⟩

theorem WrittenOut.inside (below : dest ≠ []) (mirrors : Mirrors dest disk listing)
    (stays : ∀ position, Visits disk.tree.node ⟨dest ++ names.dropLast, target.segments⟩ position →
      dest <+: position.location) (so : WrittenOut listing names target front rest) :
    (resolveInsideRoot front).isSome = true := by
  induction so with
  | text =>
      rw [resolve_inside_root_names]
      rfl
  | current so ih =>
      obtain ⟨place, resolved⟩ := Option.isSome_iff_exists.mp ih
      rw [resolve_inside_root_concat, resolved]
      rfl
  | parent so ih =>
      obtain ⟨place, resolved⟩ := Option.isSome_iff_exists.mp ih
      have up := (so.visits mirrors resolved).tail (.parent _ _)
      have nonempty : place ≠ [] := by
        intro top
        have shorter := (stays _ up).length_le
        have positive := List.length_pos_of_ne_nil below
        dsimp only at shorter
        rw [top, List.append_nil, List.length_dropLast] at shorter
        omega
      rw [resolve_inside_root_concat, resolved]
      simp [resolveInsideRoot.go, nonempty]
  | directory so resolved there ih =>
      rw [resolve_inside_root_concat, resolved]
      rfl
  | file so resolved there ih =>
      rw [resolve_inside_root_concat, resolved]
      rfl
  | link so resolved there ih => exact ih

end Way

/-- The links of an accepted archive stay inside exactly when the check that each target passes as
text would pass its text with the links on its way written out. -/
theorem extracted_links_inside_iff
    {unpackIn : Disk FileName → Entry → Except String Bool × Disk FileName} {dest : FilePath}
    (unpacks : Unpacks dest unpackIn) {disk : Disk FileName} (fresh : Fresh dest disk)
    (archive : ArchiveFile)
    (accepted : (extractArchive unpackIn archive dest disk).1 = .ok ()) :
    LinksStayInside dest (extractArchive unpackIn archive dest disk).2 ↔
      WrittenOutInside (listingOf (itemsOf archive)) := by
  have mirrors := extraction_mirrors unpacks fresh accepted
  generalize (extractArchive unpackIn archive dest disk).2 = after at mirrors
  generalize listingOf (itemsOf archive) = listing at mirrors
  constructor
  · intro stays names target front rest isLink so
    have inside : ∀ position, Visits after.tree.node ⟨dest ++ names.dropLast, target.segments⟩
        position → dest <+: position.location := by
      intro position visits
      rw [← mirrors.link_below isLink] at visits
      exact stays names target position (mirrors.link_object isLink) visits
    exact so.inside fresh.below mirrors inside
  · intro inside names target position isObject visits
    have isLink : listing names = some (.link target) := by
      rw [← mirrors.same names, isObject]
      rfl
    rw [mirrors.link_below isLink] at visits
    obtain ⟨front, place, -, -, isPlace⟩ :=
      visits_written_out mirrors (fun front rest so => inside _ _ front rest isLink so) visits
    rw [isPlace]
    exact List.prefix_append dest place

/-- `d/up` leads to the root of the archive, so `d/up/..` leads above it; as text it is `d`. -/
def climbingItems : List (Except String Entry) :=
  [demoEntry "d/" .directory none, demoEntry "d/up" .symlink (some ".."),
    demoEntry "x" .symlink (some "d/up/..")]

section Demo

set_option maxRecDepth 8192

theorem demo_accepted :
    (extractArchive (unpackPlain demoDest) (demoArchive demoItems) demoDest emptyDisk).1 =
      .ok () := by decide

theorem climbing_accepted :
    (extractArchive (unpackPlain demoDest) (demoArchive climbingItems) demoDest emptyDisk).1 =
      .ok () := by decide

theorem climbing_link :
    (extractArchive (unpackPlain demoDest) (demoArchive climbingItems) demoDest emptyDisk).2.object
      (demoDest ++ [['x']]) = some (.link (linkText "d/up/..")) := by decide

theorem climbing_resolves :
    (extractArchive (unpackPlain demoDest) (demoArchive climbingItems) demoDest
      emptyDisk).2.tree.resolve true 40 demoDest (linkText "d/up/..").segments = .ok [] := by decide

end Demo

/-- The archive is accepted, and its last link leads to the parent of the destination. -/
theorem extracted_link_leads_outside :
    (extractArchive (unpackPlain demoDest) (demoArchive climbingItems) demoDest emptyDisk).1 =
        .ok () ∧
      (extractArchive (unpackPlain demoDest) (demoArchive climbingItems) demoDest
        emptyDisk).2.tree.resolve true 40 demoDest (linkText "d/up/..").segments = .ok [] ∧
      ¬LinksStayInside demoDest (extractArchive (unpackPlain demoDest)
        (demoArchive climbingItems) demoDest emptyDisk).2 := by
  refine ⟨climbing_accepted, climbing_resolves, ?_⟩
  intro stays
  have inside := stays [['x']] (linkText "d/up/..") ⟨[], []⟩ climbing_link
    (Tree.resolve_visits _ climbing_resolves)
  exact absurd inside (by decide)

theorem demo_links_inside_iff :
    LinksStayInside demoDest
        (extractArchive (unpackPlain demoDest) (demoArchive demoItems) demoDest emptyDisk).2 ↔
      WrittenOutInside (listingOf (itemsOf (demoArchive demoItems))) :=
  extracted_links_inside_iff (unpack_plain_unpacks demoDest) demo_fresh (demoArchive demoItems)
    demo_accepted

end Containr.Api.Archives
