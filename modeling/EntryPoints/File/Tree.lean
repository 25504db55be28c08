import EntryPoints.File.Path

/-!
# Directories as values

A file tree is a file or a directory with named entries; there are no links.  Putting a
tree at a place replaces what is there, and adds what leads there if it is missing.
-/

namespace EntryPoints

inductive FileTree where
  | file (content : ByteArray)
  | directory (entries : List (String × FileTree))
deriving Inhabited

namespace FileTree

def isDirectory : FileTree → Bool
  | directory _ => true
  | file _ => false

def empty : FileTree := directory []

def entryNamed (name : String) : FileTree → Option FileTree
  | directory entries => entries.lookup name
  | file _ => none

/-- Puts an entry in the place of the one of its name, or behind the others. -/
def replaceEntry (name : String) (tree : FileTree) :
    List (String × FileTree) → List (String × FileTree)
  | [] => [(name, tree)]
  | (n, t) :: rest =>
    if n = name then (name, tree) :: rest else (n, t) :: replaceEntry name tree rest

/-- Puts a tree at a place given by names. -/
def put (tree : FileTree) : List String → FileTree → FileTree
  | [], _ => tree
  | name :: names, directory entries =>
    directory (replaceEntry name (put tree names ((entries.lookup name).getD empty)) entries)
  | name :: names, file _ => directory [(name, put tree names empty)]

/-- Takes away what is at a place given by names. -/
def remove : List String → FileTree → FileTree
  | [name], directory entries => directory (entries.filter (·.1 ≠ name))
  | name :: names, directory entries =>
    match entries.lookup name with
    | some inner => directory (replaceEntry name (remove names inner) entries)
    | none => directory entries
  | _, tree => tree

mutual

/-- All files with their paths, given the path of the tree. -/
def files (path : FilePath) : FileTree → List (FilePath × ByteArray)
  | file content => [(path, content)]
  | directory entries => filesAmong path entries

def filesAmong (path : FilePath) : List (String × FileTree) → List (FilePath × ByteArray)
  | [] => []
  | (name, tree) :: rest => files (path.child name) tree ++ filesAmong path rest

end

end FileTree

end EntryPoints
