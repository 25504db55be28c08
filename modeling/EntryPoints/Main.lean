import EntryPoints.CommandLine.Run

/-!
# The program

The files that a command names are read into a value, the command runs on that value,
and what has changed in it is written back.  A repository is read as far as its sources
go: other files are noted without their content.
-/

namespace EntryPoints.Program

open CommandLine

def usage : String :=
  "usage: entrypoints [-v] COMMAND ...\n\n" ++
  "  analyze REPOSITORY [-o FILE]\n" ++
  "  top-callers REPOSITORY METHOD [--max-depth N] [--include-tests] [-o FILE]\n" ++
  "  statement REPOSITORY STATEMENT [-o FILE]\n" ++
  "  visualize RESULTS [-o FILE]\n"

def rules : ScanRules := ({} : IndexSettings).rules

/-- What stands at a directory entry. -/
partial def load (entry : IO.FS.DirEntry) : IO FileTree := do
  if ← entry.path.isDir then
    let entries ← entry.path.readDir
    let kept := entries.toList.filter fun e => !rules.excludes e.fileName
    return .directory (← kept.mapM fun e => return (e.fileName, ← load e))
  else if rules.includes entry.fileName then
    return .file (← IO.FS.readBinFile entry.path)
  else return .file .empty

/-- The same without what lies inside. -/
def note (entry : IO.FS.DirEntry) : IO FileTree := do
  if ← entry.path.isDir then return .empty else return .file .empty

def loadFile (entry : IO.FS.DirEntry) : IO FileTree := do
  if ← entry.path.isDir then return .empty
  else return .file (← IO.FS.readBinFile entry.path)

def currentNames : IO (List String) := do
  return (FilePath.ofString (← IO.currentDir).toString).segments

/-- The names that lead from the root to a path. -/
def namesOf (path : String) : IO (List String) := do
  let path := FilePath.ofString path
  let start ← if path.isAbsolute then pure [] else currentNames
  return (FilePath.mk "/" (start ++ path.segments)).normalized.segments

/-- Adds what is at a path and the directories that lead there. -/
def fetch (read : IO.FS.DirEntry → IO FileTree) (path : String) (disk : Disk) : IO Disk := do
  let names ← namesOf path
  let mut disk := disk
  for n in List.range names.length do
    let way := names.take (n + 1)
    let around := "/" ++ Text.joinWith "/" (names.take n)
    let entry : IO.FS.DirEntry := ⟨around, way.getLastD ""⟩
    unless ← entry.path.pathExists do return disk
    let known := (disk.lookup ⟨"/", way⟩).toOption.isSome
    if way = names || !known then
      let tree ← if way = names then read entry else note entry
      disk := { disk with root := FileTree.put tree way disk.root }
  return disk

/-- Adds the directories that lead to a file that may be written. -/
def fetchOutput (output : Option String) (disk : Disk) : IO Disk :=
  match output with
  | none => return disk
  | some path => do
    let known := (disk.lookup (.ofString path)).toOption.isSome
    if known then return disk else fetch note path disk

/-- The part of the disk that a command needs. -/
def diskFor (command : Command) : IO Disk := do
  let here ← currentNames
  let disk : Disk ← fetch note "." { here }
  match command with
  | .analyze repository output | .topCallers repository _ _ _ output
  | .statement repository _ output => fetchOutput output (← fetch load repository disk)
  | .visualize input output => fetchOutput (some output) (← fetch loadFile input disk)

/-- Writes the files that are new or have changed. -/
def store (before after : Disk) : IO Unit := do
  let old := before.root.files ⟨"/", []⟩
  for (path, content) in after.root.files ⟨"/", []⟩ do
    unless old.any fun (p, c) => p == path && c == content do
      IO.FS.createDirAll path.parent.toString
      IO.FS.writeBinFile path.toString content

def run (command : Command) : IO UInt32 := do
  let disk ← diskFor command
  match command.run disk with
  | .error breakdown => throw (IO.userError breakdown.message)
  | .ok outcome =>
    IO.print outcome.printed
    IO.eprint outcome.reported
    store disk outcome.disk
    return outcome.status.toUInt32

/-- Runs on arguments; the status is 2 when they cannot be understood. -/
def start (arguments : List String) : IO UInt32 := do
  match Request.ofArguments arguments with
  | .error fault =>
    IO.eprintln (usage ++ "\n" ++ fault.message)
    return 2
  | .ok .help =>
    IO.print usage
    return 0
  | .ok .idle =>
    IO.print usage
    return 1
  | .ok (.run command) => run command

end EntryPoints.Program

def main (arguments : List String) : IO UInt32 := EntryPoints.Program.start arguments
