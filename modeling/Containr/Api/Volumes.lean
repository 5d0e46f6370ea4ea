import Containr.Files.Tree
import Containr.Path
import Containr.Store

/-!
# Volume paths of `containr-api/src/handlers/containers.rs`

A `PathBuf` is used through its components only, so a relative path is the list of
them; a resolved path is absolute and is the list of its names. The tree does not
change during a call. `canonicalize` and `symlink_metadata` each have a limit of
their own on the links they follow.
-/

namespace Containr.Api

open Containr.Effect
open Containr.Files

abbrev Name : Type := List Char

structure FileSystem where
  tree : Files.Tree Name
  cwd : List Name
  cwdDirectory : tree.node cwd = some .directory
  realpathLinks : Nat
  kernelLinks : Nat

/-- An empty segment stands for the directory it is in, as a trailing separator does. -/
def segment (text : List Char) : Segment Name :=
  if Path.skipped text then .current
  else if text = ['.', '.'] then .parent
  else .name text

def target (text : String) : Target Name :=
  ⟨Path.isAbsolute text, (Path.segments text.toList).map segment⟩

namespace FileSystem

/-- `std::fs::canonicalize`. -/
def canonicalize (fs : FileSystem) (path : String) : Except Failure (List Name) :=
  if path.isEmpty then .error .notFound
  else fs.tree.resolve true fs.realpathLinks (Files.Tree.origin fs.cwd (target path))
    (target path).segments

def canonicalizeNames (fs : FileSystem) (path : List Name) : Except Failure (List Name) :=
  fs.tree.resolve true fs.realpathLinks [] (path.map .name)

/-- `std::fs::symlink_metadata`: the last name is not followed. -/
def symlinkMetadata (fs : FileSystem) (path : List Name) : Except Failure (List Name) :=
  fs.tree.resolve false fs.kernelLinks [] (path.map .name)

end FileSystem

def invalidPath : ApiError := ⟨400, "invalid path"⟩

def pathEscapesMount : ApiError := ⟨403, "path escapes mount"⟩

def validateRelPath (relPath : String) : Except ApiError (List Path.Component) :=
  if Path.isAbsolute relPath then .error ⟨400, "path must be relative"⟩
  else if (Path.components relPath).any (fun part => part = .parentDir || part = .rootDir) then
    .error invalidPath
  else .ok (Path.components relPath)

def pushedNames : List Path.Component → Except ApiError (List Name)
  | [] => .ok []
  | .normal name :: rest => (pushedNames rest).map (name :: ·)
  | .curDir :: rest => pushedNames rest
  | .rootDir :: _ | .parentDir :: _ => .error invalidPath

/-- Walks up from a path, given in reverse, to the deepest ancestor that exists;
`missing` holds the names below it. -/
def deepestExisting (fs : FileSystem) :
    List Name → List Name → Except ApiError (List Name × List Name)
  | [], missing =>
      match fs.symlinkMetadata [] with
      | .ok _ => .ok ([], missing)
      | .error .notFound => .error pathEscapesMount
      | .error _ => .error internalError
  | name :: parent, missing =>
      match fs.symlinkMetadata (name :: parent).reverse with
      | .ok _ => .ok ((name :: parent).reverse, missing)
      | .error .notFound => deepestExisting fs parent (name :: missing)
      | .error _ => .error internalError

/-- Dangling links fail to canonicalize. -/
def resolveExisting (fs : FileSystem) (base existing missing : List Name) :
    Except ApiError (List Name) :=
  match fs.canonicalizeNames existing with
  | .error _ => .error pathEscapesMount
  | .ok resolved =>
      if base.isPrefixOf resolved then .ok (resolved ++ missing) else .error pathEscapesMount

def resolveWithinMount (fs : FileSystem) (base : String) (rel : List Path.Component) :
    Except ApiError (List Name) :=
  match fs.canonicalize base with
  | .error _ => .error internalError
  | .ok root => do
      let names ← pushedNames rel
      let (existing, missing) ← deepestExisting fs (root ++ names).reverse []
      resolveExisting fs root existing missing

def lastNormal (rel : List Path.Component) : Option Name :=
  (rel.filterMap fun
    | .normal name => some name
    | .rootDir | .curDir | .parentDir => none).getLast?

def resolveEntryWithinMount (fs : FileSystem) (base : String) (rel : List Path.Component) :
    Except ApiError (List Name) :=
  match lastNormal rel with
  | none => .error ⟨400, "path is required"⟩
  | some name => do
      let parent ← resolveWithinMount fs base rel.dropLast
      return parent ++ [name]

structure Contained (fs : FileSystem) (root path : List Name) : Prop where
  inside : root <+: path
  plain : ∀ front, front <+: path → ∀ link, fs.tree.node front ≠ some (.link link)

section Existing

variable {fs : FileSystem}

/-- The first missing name was looked up below the ancestor and not found. -/
theorem deepest_existing_missing {path missing existing rest : List Name}
    (found : deepestExisting fs path missing = .ok (existing, rest))
    (tried : ∀ name later, missing = name :: later →
      fs.symlinkMetadata (path.reverse ++ [name]) = .error .notFound) :
    ∀ name later, rest = name :: later →
      fs.symlinkMetadata (existing ++ [name]) = .error .notFound := by
  induction path generalizing missing with
  | nil =>
      rw [deepestExisting] at found
      cases looked : fs.symlinkMetadata [] with
      | ok entry =>
          simp only [looked, Except.ok.injEq, Prod.mk.injEq] at found
          rw [← found.1, ← found.2]
          exact tried
      | error failure => cases failure <;> simp [looked] at found
  | cons name parent ih =>
      rw [deepestExisting] at found
      cases looked : fs.symlinkMetadata (name :: parent).reverse with
      | ok entry =>
          simp only [looked, Except.ok.injEq, Prod.mk.injEq] at found
          rw [← found.1, ← found.2]
          exact tried
      | error failure =>
          cases failure with
          | notFound =>
              simp only [looked] at found
              apply ih found
              intro first later split
              have sameName : name = first := (List.cons.inj split).1
              rw [← sameName, ← List.reverse_cons]
              exact looked
          | notADirectory =>
              rw [looked] at found
              cases found
          | loop =>
              rw [looked] at found
              cases found

theorem resolved_contained {root existing missing resolved : List Name}
    (canonical : fs.canonicalizeNames existing = .ok resolved)
    (inside : root <+: resolved)
    (absent : ∀ name later, missing = name :: later →
      fs.symlinkMetadata (existing ++ [name]) = .error .notFound) :
    Contained fs root (resolved ++ missing) := by
  obtain ⟨node, isNode, notLink⟩ := fs.tree.resolve_found fs.tree.root canonical
  refine ⟨inside.trans (List.prefix_append _ _), ?_⟩
  intro front above link isLink
  have present : fs.tree.node front ≠ none := by simp [isLink]
  rcases List.prefix_or_prefix_of_prefix above (List.prefix_append resolved missing) with
    upper | ⟨rest, split⟩
  · -- down to the canonical path there are only directories
    by_cases whole : front = resolved
    · rw [whole, isNode] at isLink
      rw [Option.some.inj isLink] at notLink
      cases notLink
    · have canonicalPresent : fs.tree.node resolved ≠ none := by simp [isNode]
      rw [fs.tree.directory_above canonicalPresent upper whole] at isLink
      cases isLink
  · rw [← split] at above
    have below : rest <+: missing := (List.prefix_append_right_inj resolved).mp above
    cases rest with
    | nil =>
        rw [← split, List.append_nil, isNode] at isLink
        rw [Option.some.inj isLink] at notLink
        cases notLink
    | cons name later =>
        -- below it nothing exists, since the first missing name does not
        obtain ⟨others, whole⟩ := below
        have looked := absent name (later ++ others) whole.symm
        unfold FileSystem.symlinkMetadata at looked
        rw [List.map_append, List.map_singleton] at looked
        have none := fs.tree.absent_below fs.tree.root canonical looked
        apply present
        apply fs.tree.absent_extends none
        rw [← split]
        exact (List.prefix_append_right_inj resolved).mpr ⟨later, rfl⟩

end Existing

theorem resolve_within_mount_contained {fs : FileSystem} {base : String}
    {rel : List Path.Component} {path : List Name}
    (resolved : resolveWithinMount fs base rel = .ok path) :
    ∃ root, fs.canonicalize base = .ok root ∧ Contained fs root path := by
  unfold resolveWithinMount at resolved
  cases canonical : fs.canonicalize base with
  | error failure => simp [canonical] at resolved
  | ok root =>
      simp only [canonical] at resolved
      obtain ⟨names, -, walked⟩ := except_bind_ok resolved
      obtain ⟨⟨existing, missing⟩, found, ended⟩ := except_bind_ok walked
      refine ⟨root, rfl, ?_⟩
      have absent := deepest_existing_missing found (by simp)
      unfold resolveExisting at ended
      cases followed : fs.canonicalizeNames existing with
      | error failure => simp [followed] at ended
      | ok target =>
          simp only [followed] at ended
          split_ifs at ended with inside
          rw [← Except.ok.inj ended]
          exact resolved_contained followed (List.isPrefixOf_iff_prefix.mp inside) absent

/-- What `resolve_within_mount` accepts lies inside the mount with no link on the way;
`resolve_entry_within_mount` adds one name to such a path without following it. -/
theorem volume_paths_contained (fs : FileSystem) (base text : String) (rel : List Path.Component)
    (accepted : validateRelPath text = .ok rel) :
    (∀ path, resolveWithinMount fs base rel = .ok path →
      ∃ root, fs.canonicalize base = .ok root ∧ Contained fs root path) ∧
    ∀ path, resolveEntryWithinMount fs base rel = .ok path →
      ∃ root parent name, fs.canonicalize base = .ok root ∧ root <+: path ∧ root ≠ path ∧
        path = parent ++ [name] ∧ Contained fs root parent ∧
        lastNormal (Path.components text) = some name := by
  have isRel : Path.components text = rel := by
    unfold validateRelPath at accepted
    split_ifs at accepted
    exact Except.ok.inj accepted
  refine ⟨fun path resolved => resolve_within_mount_contained resolved, ?_⟩
  intro path resolved
  unfold resolveEntryWithinMount at resolved
  cases last : lastNormal rel with
  | none => simp [last] at resolved
  | some name =>
      simp only [last] at resolved
      obtain ⟨parent, within, joined⟩ := except_bind_ok resolved
      obtain ⟨root, canonical, contained⟩ := resolve_within_mount_contained within
      have isPath : parent ++ [name] = path := Except.ok.inj joined
      have inside : root <+: path := by
        rw [← isPath]
        exact contained.inside.trans (List.prefix_append parent [name])
      have strictly : root ≠ path := by
        intro same
        have short := contained.inside.length_le
        have long := congrArg List.length (same.trans isPath.symm)
        rw [List.length_append, List.length_singleton] at long
        omega
      rw [isRel]
      exact ⟨root, parent, name, canonical, inside, strictly, isPath.symm, contained, last⟩

/-! A mount with a link that stays inside and one that leaves. -/

def mountEntries : List (List Name × Node Name) :=
  [(["srv".toList], .directory), (["srv".toList, "mount".toList], .directory),
    (["srv".toList, "mount".toList, "sub".toList], .directory),
    (["srv".toList, "mount".toList, "inner".toList], .link (target "/srv/mount/sub")),
    (["srv".toList, "mount".toList, "escape".toList], .link (target "../outside")),
    (["srv".toList, "outside".toList], .directory)]

def mountExample : FileSystem where
  tree := Files.Tree.ofEntries mountEntries (by decide +kernel)
  cwd := []
  cwdDirectory := rfl
  realpathLinks := 40
  kernelLinks := 40

example : resolveWithinMount mountExample "/srv/mount" (Path.components "escape/new/file") =
    .error pathEscapesMount := by decide +kernel

theorem volume_paths_contained_inner :
    resolveWithinMount mountExample "/srv/mount" (Path.components "inner/new") =
      .ok ["srv".toList, "mount".toList, "sub".toList, "new".toList] ∧
    resolveEntryWithinMount mountExample "/srv/mount" (Path.components "inner/new") =
      .ok ["srv".toList, "mount".toList, "sub".toList, "new".toList] ∧
    ∃ root, mountExample.canonicalize "/srv/mount" = .ok root ∧
      Contained mountExample root
        ["srv".toList, "mount".toList, "sub".toList, "new".toList] :=
  ⟨by decide +kernel, by decide +kernel,
    (volume_paths_contained mountExample "/srv/mount" "inner/new" (Path.components "inner/new")
      (by decide +kernel)).1 _ (by decide +kernel)⟩

end Containr.Api
