import Containr.Effect.Program
import Containr.Files.Disk
import Containr.Path

/-!
# `containr-api/src/archive.rs`

Reading and decompressing are the tar and flate2 crates: an archive is the entries they yield.
`unpack_in` is a parameter; `Unpacks` says what is known of it. Paths are their components, and
the destination is the canonical path of a directory.
-/

namespace Containr.Api.Archives

open Containr.Files

abbrev FileName := List Char

abbrev FilePath := List FileName

def maxExtractedBytes : Nat := 4 * 1024 * 1024 * 1024

def maxEntries : Nat := 200000

inductive EntryType where
  | regular | continuous | gnuSparse | directory | symlink | link
  | other (debug : String)
deriving DecidableEq, Repr

/-- What the tar crate reads of an entry; `ustar` tells `as_ustar` of its header. -/
structure Entry where
  path : Except String String
  entryType : EntryType
  ustar : Bool
  linkName : Except String (Option String)
  size : Option Nat
  data : List UInt8

/-- An archive as it is opened: reading its first bytes can fail, and so can listing its entries or
reading any of them. -/
structure ArchiveFile where
  opened : Except String Unit
  magic : Except String (List UInt8)
  rewound : Except String Unit
  plain : Except String (List (Except String Entry))
  gunzipped : Except String (List (Except String Entry))

def linkTarget (entry : Entry) : Except String String :=
  match entry.linkName with
  | .error message => .error ("invalid link target: " ++ message)
  | .ok none => .error "link entry is missing its target"
  | .ok (some target) => .ok target

/-- Rejects absolute paths and parent components, dropping `.` components. -/
def normalizeEntryPath (path : String) : Except String FilePath :=
  let rec go (normalized : FilePath) : List Path.Component → Except String FilePath
    | [] => .ok normalized
    | .normal part :: rest => go (normalized ++ [part]) rest
    | .curDir :: rest => go normalized rest
    | .parentDir :: _ => .error ("archive entry " ++ path ++ " contains '..'")
    | .rootDir :: _ => .error ("archive entry " ++ path ++ " is absolute")
  go [] (Path.components path)

/-- Lexically resolves a relative path, `none` if it leaves the root. -/
def resolveInsideRoot (path : List Path.Component) : Option FilePath :=
  let rec go (resolved : FilePath) : List Path.Component → Option FilePath
    | [] => some resolved
    | .normal part :: rest => go (resolved ++ [part]) rest
    | .curDir :: rest => go resolved rest
    | .parentDir :: rest => if resolved.isEmpty then none else go resolved.dropLast rest
    | .rootDir :: _ => none
  go [] path

/-- `Path::ancestors`, the path itself first. -/
def ancestors (path : FilePath) : List FilePath := path.inits.reverse

/-- The local variables of `unpack`, and the disk it writes to. -/
structure Unpacking where
  symlinks : List FilePath
  totalBytes : Nat
  count : Nat
  disk : Disk FileName

def require (condition : Bool) (message : String) : Except String Unit :=
  if condition then .ok () else .error message

/-- `u64::saturating_add`. -/
def saturatingAdd (left right : Nat) : Nat := min (left + right) (2 ^ 64 - 1)

def checkType (symlinks : List FilePath) (rawPath : String) (path : FilePath) (entry : Entry) :
    Except String (List FilePath) :=
  match entry.entryType with
  | .regular | .continuous | .gnuSparse | .directory => .ok symlinks
  | .symlink => do
      let target ← linkTarget entry
      require (!Path.isAbsolute target) ("symlink " ++ rawPath ++ " has an absolute target")
      -- `parent.join(target)`; the target is relative
      let joined := path.dropLast.map Path.Component.normal ++ Path.components target
      require (resolveInsideRoot joined).isSome ("symlink " ++ rawPath ++ " escapes the archive root")
      return path :: symlinks
  | .link => do
      let text ← linkTarget entry
      let target ← (normalizeEntryPath text).mapError fun _ =>
        "hard link " ++ rawPath ++ " escapes the archive root"
      require (!(target.isEmpty || (ancestors target).any symlinks.contains))
        ("hard link " ++ rawPath ++ " has an invalid target")
      return symlinks
  | .other debug =>
      .error ("unsupported archive entry type " ++ debug ++ " for " ++ rawPath)

/-- A round up to `unpack_in`; the entry of the root itself is skipped. -/
def checkEntry (state : Unpacking) (item : Except String Entry) :
    Except String (Option Entry × Unpacking) := do
  let entry ← item.mapError ("invalid archive: " ++ ·)
  let count := state.count + 1
  require (count ≤ maxEntries) "archive has too many entries"
  let rawPath ← entry.path.mapError ("invalid entry path: " ++ ·)
  let path ← normalizeEntryPath rawPath
  if path.isEmpty then return (none, { state with count := count })
  require (!(ancestors path).tail.any state.symlinks.contains)
    ("archive entry " ++ rawPath ++ " is nested under a symlink")
  let symlinks ← checkType state.symlinks rawPath path entry
  let totalBytes := saturatingAdd state.totalBytes (entry.size.getD 0)
  require (totalBytes ≤ maxExtractedBytes) "archive contents are too large"
  return (some entry, { state with symlinks := symlinks, totalBytes := totalBytes, count := count })

def rawText (entry : Entry) : String :=
  match entry.path with
  | .ok path => path
  | .error _ => ""

section Extract

variable (unpackIn : Disk FileName → Entry → Except String Bool × Disk FileName)

def unpackEntry (state : Unpacking) (item : Except String Entry) : Except String Unit × Unpacking :=
  match checkEntry state item with
  | .error message => (.error message, state)
  | .ok (none, checked) => (.ok (), checked)
  | .ok (some entry, checked) =>
      match unpackIn checked.disk entry with
      | (.error message, disk) => (.error ("failed to extract " ++ rawText entry ++ ": " ++ message),
          { checked with disk := disk })
      | (.ok false, disk) => (.error ("archive entry " ++ rawText entry ++
          " escapes the archive root"), { checked with disk := disk })
      | (.ok true, disk) => (.ok (), { checked with disk := disk })

def unpackEntries (state : Unpacking) : List (Except String Entry) → Except String Unit × Unpacking
  | [] => (.ok (), state)
  | item :: rest =>
      match unpackEntry unpackIn state item with
      | (.ok (), next) => unpackEntries next rest
      | (.error message, next) => (.error message, next)

end Extract

/-- `create_dir_all` of a canonical path, from the root down. -/
def createDirAll (disk : Disk FileName) (front : FilePath) :
    FilePath → Except String Unit × Disk FileName
  | [] => (.ok (), disk)
  | name :: rest =>
      if disk.object (front ++ [name]) = some .directory then
        createDirAll disk (front ++ [name]) rest
      else if can : disk.CanHold (front ++ [name]) ∧ disk.object (front ++ [name]) = none then
        createDirAll (disk.put (front ++ [name]) .directory can.1 disk.directory_small)
          (front ++ [name]) rest
      else (.error "File exists", disk)

def unpack (unpackIn : Disk FileName → Entry → Except String Bool × Disk FileName) (dest : FilePath)
    (entries : Except String (List (Except String Entry))) (disk : Disk FileName) :
    Except String Unit × Disk FileName :=
  match createDirAll disk [] dest with
  | (.error message, disk) =>
      (.error ("failed to create extraction directory: " ++ message), disk)
  | (.ok (), disk) =>
      match entries with
      | .error message => (.error ("invalid archive: " ++ message), disk)
      | .ok entries =>
          let outcome := unpackEntries unpackIn ⟨[], 0, 0, disk⟩ entries
          (outcome.1, outcome.2.disk)

def openArchive (archive : ArchiveFile) : Except String (List UInt8) := do
  archive.opened.mapError ("failed to open archive: " ++ ·)
  let magic ← archive.magic.mapError ("failed to read archive: " ++ ·)
  archive.rewound.mapError ("failed to read archive: " ++ ·)
  return magic

def extractArchive (unpackIn : Disk FileName → Entry → Except String Bool × Disk FileName)
    (archive : ArchiveFile) (dest : FilePath) (disk : Disk FileName) :
    Except String Unit × Disk FileName :=
  match openArchive archive with
  | .error message => (.error message, disk)
  | .ok magic =>
      if magic = [0x1f, 0x8b] then unpack unpackIn dest archive.gunzipped disk
      else unpack unpackIn dest archive.plain disk

def pathNames (path : String) : FilePath :=
  (Path.components path).filterMap fun
    | .normal part => some part
    | .curDir | .parentDir | .rootDir => none

def Entry.names (entry : Entry) : FilePath := pathNames (rawText entry)

def linkText (text : String) : Target FileName where
  absolute := Path.isAbsolute text
  segments := (Path.components text).filterMap fun
    | .normal part => some (.name part)
    | .curDir => some .current
    | .parentDir => some .parent
    | .rootDir => none

inductive Kind where
  | file | directory | symlink | hardLink | other
deriving DecidableEq, Repr

/-- What an entry is unpacked as. Where the header is no ustar header, a name that ends in a slash
is the name of a directory. -/
def Entry.kind (entry : Entry) : Kind :=
  match entry.entryType with
  | .regular | .continuous | .gnuSparse =>
      if !entry.ustar && Text.endsWith (rawText entry) "/" then .directory else .file
  | .directory => .directory
  | .symlink => .symlink
  | .link => .hardLink
  | .other _ => .other

def Made (dest : FilePath) (disk : Disk FileName) (entry : Entry) (object : Object FileName) :
    Prop :=
  match entry.kind with
  | .file => ∃ inode, object = .file inode ∧ disk.next ≤ inode
  | .directory => object = .directory
  | .symlink => ∃ target, entry.linkName = .ok (some target) ∧ object = .link (linkText target)
  | .hardLink => ∃ target source, entry.linkName = .ok (some target) ∧
      Disk.Place disk dest (pathNames target) source ∧ disk.object source = some object ∧
      object ≠ .directory
  | .other => True

/-- What stands at the place of an entry that was unpacked. A directory that is there already, or a
link to one, stays as it is. -/
def Stands (dest : FilePath) (disk : Disk FileName) (entry : Entry) (location : FilePath)
    (after : Disk FileName) : Prop :=
  match entry.kind with
  | .file => ∃ inode, after.object location = some (.file inode)
  | .directory => disk.object location = none ∧ after.object location = some .directory ∨
      disk.object location ≠ none ∧ after.object location = disk.object location
  | .symlink | .hardLink =>
      ∃ object, Made dest disk entry object ∧ after.object location = some object
  | .other => True

/-- It writes at the destination plus the path of the entry, following the links among the parents
that are on the disk, and makes the parents that are missing. A file is written anew. -/
structure Unpacked (dest : FilePath) (disk : Disk FileName) (entry : Entry)
    (result : Except String Bool) (after : Disk FileName) : Prop where
  onTheWay : ∀ location, after.object location ≠ disk.object location →
    Disk.OnTheWay disk dest entry.names location
  parents : ∀ location, after.object location ≠ disk.object location →
    ¬Disk.Place disk dest entry.names location →
      disk.object location = none ∧ after.object location = some .directory
  last : ∀ location object, after.object location ≠ disk.object location →
    Disk.Place disk dest entry.names location → after.object location = some object →
      Made dest disk entry object
  contents : ∀ inode, after.content inode ≠ disk.content inode → disk.next ≤ inode ∨
    ∃ location, Disk.Place disk dest entry.names location ∧
      disk.object location = some (.file inode)
  done : result = .ok true → entry.names ≠ [] → ∃ location,
    Disk.Place disk dest entry.names location ∧ Stands dest disk entry location after

def LetThrough (entry : Entry) : Prop :=
  ∃ state next, checkEntry state (.ok entry) = .ok (some entry, next)

/-- `unpack_in`, called with a directory and an entry that was let through. -/
def Unpacks (dest : FilePath)
    (unpackIn : Disk FileName → Entry → Except String Bool × Disk FileName) : Prop :=
  ∀ disk entry, disk.object dest = some .directory → LetThrough entry →
    Unpacked dest disk entry (unpackIn disk entry).1 (unpackIn disk entry).2

end Containr.Api.Archives
