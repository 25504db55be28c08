import EntryPoints.Failure
import EntryPoints.File.Disk
import EntryPoints.File.Glob

/-!
# Looking for sources

A scan lists the files of a directory whose names fit an include pattern, with the
directories that lead to them.  Files and directories whose names fit an exclude pattern
are left out with all they hold; the directory where the scan starts is never left out.
Entries are listed by name.  What it means that a name fits a pattern is part of the rules.
-/

namespace EntryPoints

structure ScanRules where
  includePatterns : List String
  excludePatterns : List String
  /-- Whether a name, which comes first, fits a pattern. -/
  fits : String → String → Bool := fitsPattern
deriving Inhabited

namespace ScanRules

def defaultIncludes : List String := ["*.java"]

def defaultExcludes : List String :=
  ["node_modules", "__pycache__", ".git", ".svn", ".hg", "target", "build", "out", ".gradle",
    ".vscode", ".idea"]

/-- Rules from lists of patterns; an empty list stands for the default one. -/
def ofPatterns (includes excludes : List String) : ScanRules where
  includePatterns := if includes.isEmpty then defaultIncludes else includes
  excludePatterns := if excludes.isEmpty then defaultExcludes else excludes

end ScanRules

inductive Scanned where
  | file (name path : String) (size : Nat)
  | directory (name path : String) (children : List Scanned)
deriving Repr, Inhabited

namespace Scanned

def name : Scanned → String
  | file name _ _ => name
  | directory name _ _ => name

mutual

def count : Scanned → Nat
  | file _ _ _ => 1
  | directory _ _ children => countAll children

def countAll : List Scanned → Nat
  | [] => 0
  | s :: rest => count s + countAll rest

end

mutual

def paths : Scanned → List String
  | file _ path _ => [path]
  | directory _ _ children => pathsAmong children

def pathsAmong : List Scanned → List String
  | [] => []
  | s :: rest => paths s ++ pathsAmong rest

end

/-- The paths of all files, in the order of their texts. -/
def sortedPaths (s : Scanned) : List String := s.paths.mergeSort fun a b => decide (a ≤ b)

end Scanned

namespace ScanRules

variable (rules : ScanRules)

def fitsAny (patterns : List String) (name : String) : Bool := patterns.any (rules.fits name)

def excludes (name : String) : Bool := rules.fitsAny rules.excludePatterns name

def includes (name : String) : Bool := rules.fitsAny rules.includePatterns name

mutual

/-- What a scan finds in a tree at a path. -/
def scan (path : FilePath) : FileTree → Scanned
  | .file content => .file path.name path.toString content.size
  | .directory entries =>
    .directory path.name path.toString
      ((scanEntries path entries).mergeSort fun a b => decide (a.name ≤ b.name))

def scanEntries (path : FilePath) : List (String × FileTree) → List Scanned
  | [] => []
  | (name, tree) :: rest =>
    let others := scanEntries path rest
    if rules.excludes name then others
    else
      match tree with
      | .file content =>
        if rules.includes name then
          .file name (path.child name).toString content.size :: others
        else others
      | .directory _ => scan (path.child name) tree :: others

end

def scanAt (disk : Disk) (path : String) : Except Failure Scanned :=
  let path := FilePath.ofString path
  match disk.lookup path with
  | .ok (.directory entries) => .ok (rules.scan path (.directory entries))
  | _ => .error (.repositoryMissing path.toString)

end ScanRules

end EntryPoints
