import EntryPoints.File.Fault
import EntryPoints.File.Tree

/-!
# Disks

A disk is a tree with the place from which relative paths are taken.  A path is followed
segment by segment: every segment but the last has to be a directory, and `..` goes back
to the directory around, where the root is around itself.

Writing replaces a file or adds one to a directory that is there.  Making a directory
makes those above it as well, and is content with one that is there.
-/

namespace EntryPoints

structure Disk where
  root : FileTree := .empty
  /-- The names that lead from the root to the working directory. -/
  here : List String := []
deriving Inhabited

namespace Disk

/-- The way from the root to a place: the trees on it with their names, the last first. -/
abbrev Way := List (String × FileTree)

def Way.names (way : Way) : List String := (way.map (·.1)).reverse

variable (disk : Disk)

/-- The tree at the end of a way. -/
def treeAt : Way → FileTree
  | [] => disk.root
  | (_, tree) :: _ => tree

def follow : List String → Way → Except PathFault Way
  | [], way => .ok way
  | segment :: rest, way =>
    match disk.treeAt way with
    | .file _ => .error .notDirectory
    | .directory entries =>
      if segment = ".." then follow rest way.tail
      else
        match entries.lookup segment with
        | none => .error .missing
        | some tree => follow rest ((segment, tree) :: way)

/-- The way to the place at which a path starts. -/
def startOf (path : FilePath) : Way :=
  if path.isAbsolute then [] else (disk.follow disk.here []).toOption.getD []

def locate (path : FilePath) : Except PathFault Way :=
  if path.segments.any (·.contains '\x00') then .error .embeddedNull
  else disk.follow path.segments (disk.startOf path)

def lookup (path : FilePath) : Except PathFault FileTree := (disk.locate path).map disk.treeAt

def isDirectory (path : FilePath) : Bool :=
  match disk.lookup path with
  | .ok tree => tree.isDirectory
  | .error _ => false

/-- Whether a path is a place that always exists within its directory. -/
def namesItself (path : FilePath) : Bool := path.segments.isEmpty || path.name == ".."

/-- The directory in which a path names an entry. -/
def directoryOf (path : FilePath) : Except PathFault Way := do
  if path.name.contains '\x00' then throw .embeddedNull
  let way ← disk.locate path.parent
  if (disk.treeAt way).isDirectory then return way else throw .notDirectory

/-- The disk with a tree at a name in a directory. -/
def withEntry (way : Way) (name : String) (tree : FileTree) : Disk :=
  { disk with root := FileTree.put tree (way.names ++ [name]) disk.root }

/-! ## Reading and writing -/

/-- Whether a text asks for a directory: it ends with a slash or a dot segment. -/
def asksForDirectory (text : String) : Bool :=
  let last := Text.afterLast '/' text.toList
  last = [] || last = ['.']

/-- Whether the last name of a path is a dot. -/
def endsWithDot (text : String) : Bool :=
  ((Text.splitOn '/' text.toList).filter (· ≠ [])).getLast? = some ['.']

/-- The content of a file, given the text of its path. -/
def read (text : String) : Except PathFault ByteArray := do
  if text = "" then throw .missing
  match ← disk.lookup (FilePath.ofString text) with
  | .directory _ => throw .isDirectory
  | .file content => if asksForDirectory text then throw .notDirectory else return content

/-- Writes a file, given the text of its path. -/
def write (text : String) (content : ByteArray) : Except PathFault Disk := do
  let path := FilePath.ofString text
  if text = "" then throw .missing
  if namesItself path || endsWithDot text then
    match ← disk.lookup path with
    | .directory _ => throw .isDirectory
    | .file _ => throw .notDirectory
  let way ← disk.directoryOf path
  if asksForDirectory text || ((disk.treeAt way).entryNamed path.name).any FileTree.isDirectory then
    throw .isDirectory
  return disk.withEntry way path.name (.file content)

def makeDirectory (path : FilePath) : Except PathFault Disk := do
  if namesItself path then
    let _ ← disk.locate path
    throw .taken
  let way ← disk.directoryOf path
  if ((disk.treeAt way).entryNamed path.name).isSome then throw .taken
  return disk.withEntry way path.name .empty

def ensureDirectory (path : FilePath) : Except (FilePath × PathFault) Disk :=
  match disk.makeDirectory path with
  | .ok disk => .ok disk
  | .error fault =>
    if fault ≠ .missing ∧ disk.isDirectory path then .ok disk else .error (path, fault)

/-- Makes a directory with up to `steps` directories above it. -/
def ensureAbove (disk : Disk) (path : FilePath) :
    (steps : Nat) → Except (FilePath × PathFault) Disk
  | 0 => disk.ensureDirectory path
  | steps + 1 =>
    match disk.ensureDirectory path with
    | .error (_, .missing) =>
      match ensureAbove disk path.parent steps with
      | .ok disk => disk.ensureDirectory path
      | .error fault => .error fault
    | result => result

/-- Makes a directory and whatever is missing above it. -/
def ensureDirectories (path : FilePath) : Except (FilePath × PathFault) Disk :=
  disk.ensureAbove path path.segments.length

/-- Puts a file at a place, making the directories above it. -/
def putFile (path : FilePath) (content : ByteArray) : Disk :=
  { disk with root := FileTree.put (.file content) (disk.here ++ path.segments) disk.root }

def putDirectory (path : FilePath) : Disk :=
  { disk with root := FileTree.put .empty (disk.here ++ path.segments) disk.root }

/-- Takes away a file or a whole directory. -/
def remove (path : FilePath) : Disk :=
  { disk with root := FileTree.remove (disk.here ++ path.segments) disk.root }

/-- The files below the working directory with their paths from there. -/
def filesHere : List (FilePath × ByteArray) :=
  match disk.follow disk.here [] with
  | .ok way => (disk.treeAt way).files ⟨"", []⟩
  | .error _ => []

end Disk

end EntryPoints
