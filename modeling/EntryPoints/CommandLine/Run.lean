import EntryPoints.CommandLine.Command
import EntryPoints.Drawing
import EntryPoints.Json.Reader
import EntryPoints.Json.Writer
import EntryPoints.Report
import EntryPoints.Text.Lines

/-!
# Running commands

A command prints lines and may save a file.  What goes wrong with a request, a path or
the text of a file is reported, and the command ends with status 1; what was printed and
saved before stays.  A command breaks down without a report when a record is nested too
deep or has not the shape of a search result, or when the method to search for is missing.
How deep is too deep depends on the levels of the stack that a command has left.

The callers of a statement are a set: they are printed in the order of their lines and
saved in the order of their records.
-/

namespace EntryPoints.CommandLine

/-- What a command reports when it cannot go on. -/
inductive Trouble where
  | request (failure : Failure)
  | unusablePath (path : String) (fault : PathFault)
  | encoding (fault : Text.DecodeFault)
  | json (message : String)
  | statementMissing
deriving Inhabited

def absentValue (use : String) : String :=
  "'list' object has no attribute " ++ Text.quoted use

def Trouble.message : Trouble → String
  | request failure => failure.message
  | unusablePath path fault => fault.message path
  | encoding fault => fault.message
  | json message => message
  | statementMissing => "Statement search failed: " ++ absentValue "rpartition"

/-- What no command reports. -/
inductive Breakdown where
  | shape (fault : ShapeFault)
  | methodMissing
deriving Inhabited

def Breakdown.message : Breakdown → String
  | shape fault => fault.message
  | methodMissing => absentValue "strip"

inductive Problem where
  | trouble (trouble : Trouble)
  | breakdown (breakdown : Breakdown)
deriving Inhabited

/-- What a command works on: a disk, and the text that it has printed. -/
structure Desk where
  disk : Disk
  printed : String := ""
deriving Inhabited

abbrev Job := ExceptT Problem (StateM Desk)

namespace Job

variable {α ε : Type}

def say (text : String) : Job Unit := modify fun desk => { desk with printed := desk.printed ++ text }

def sayLine (text : String) : Job Unit := say (text ++ "\n")

def orReport (trouble : ε → Trouble) : Except ε α → Job α
  | .ok a => return a
  | .error e => throw (.trouble (trouble e))

def orBreak (breakdown : ε → Breakdown) : Except ε α → Job α
  | .ok a => return a
  | .error e => throw (.breakdown (breakdown e))

/-- Puts the disk in the place that a step left it in. -/
def keep (trouble : ε → Trouble) (step : Disk → Except ε Disk) : Job Unit := do
  let disk ← orReport trouble (step (← get).disk)
  modify fun desk => { desk with disk }

end Job

open Job

/-! ## Files -/

def readText (path : String) : Job String := do
  let content ← orReport (.unusablePath path) ((← get).disk.read path)
  let text ← orReport .encoding (Text.Encoding.utf8.decode content.toList)
  return String.ofList (Text.withLineFeeds text.toList)

def writeText (path text : String) : Job Unit :=
  keep (.unusablePath path) fun disk => disk.write path text.toUTF8

/-- Saves a record, making the directories above it; an empty path saves nothing. -/
def saveRecord (output : Option String) (record : Json) : Job Unit := do
  match output.filter (· ≠ "") with
  | none => return
  | some output =>
    let path := FilePath.ofString output
    keep (fun (place, fault) => .unusablePath place.toString fault)
      fun disk => disk.ensureDirectories path.parent
    writeText path.toString record.pretty
    sayLine ("Results saved to: " ++ path.toString)

/-! ## Searches -/

/-- A service over a repository with its index built. -/
def openService (repository : String) (includeTests : Bool) (maxDepth : Int) :
    Job (Service × ServiceState × Snapshot) := do
  sayLine ("Indexing repository: " ++ repository)
  let settings : IndexSettings :=
    { repository := some repository
      scope := .ofRoots (some repository) Scope.defaultTestRoots includeTests }
  let service : Service := { settings, finder := { maxDepth } }
  let (built, state) := service.build (← get).disk {}
  let snapshot ← orReport .request built
  return (service, state, snapshot)

def defaultDepth : Int := ({} : Finder).maxDepth

/-- The qualified name of a method with its parameters. -/
def heading (m : Method) : String :=
  m.qualifiedName ++ "(" ++ Text.joinWith ", " m.parameters ++ ")"

def placeText : Option Location → String
  | some l => l.file ++ ":" ++ toString l.line
  | none => "unknown"

def callerLine (m : Method) : String :=
  "  - " ++ heading m ++ "  [" ++ placeText m.location ++ "]"

def sayCallers (title : String) (lines : List String) : Job Unit := do
  sayLine ("\nTop callers of " ++ title ++ ":")
  if lines.isEmpty then sayLine "  No top callers found"
  for line in lines do sayLine line

def analyze (repository : String) (output : Option String) : Job Unit := do
  let (service, state, snapshot) ← openService repository false defaultDepth
  let summary ← orReport .request (service.summary state)
  let found := summary.index
  sayLine ("Found " ++ toString found.types ++ " types and " ++ toString found.methods ++
    " methods in " ++ toString found.files ++ " files (" ++ toString found.productionFiles ++
    " production)")
  sayLine ("Call sites: " ++ toString found.invocations ++ ", lambdas and method references: " ++
    toString found.functionalExpressions)
  saveRecord output <| .object
    [("summary", .object summary.report),
      ("methods", .array ((sortMethods snapshot.methods).map Method.report))]
  sayLine "Analysis completed successfully!"

def topCallers (repository : String) (method : Option String) (maxDepth : Option Int)
    (includeTests : Bool) (output : Option String) : Job Unit := do
  let (service, state, _) ← openService repository includeTests (maxDepth.getD defaultDepth)
  let spec ← orBreak (fun _ : Unit => .methodMissing) (method.elim (.error ()) .ok)
  let start ← orReport .request (Service.resolve spec state)
  let result ← orReport .request (service.search .idle start () state).1
  sayCallers (heading result.start) ((sortMethods result.topCallers).map callerLine)
  sayLine ("\nVisited " ++ toString result.visitedCount ++ " methods")
  if result.truncated then
    sayLine ("Warning: search stopped at depth " ++ toString service.finder.maxDepth ++ " on " ++
      toString result.truncatedKeys.length ++ " path(s); results may be incomplete")
  saveRecord output result.report

def statement (repository : String) (statementId : Option String) (output : Option String) :
    Job Unit := do
  let (service, state, _) ← openService repository false defaultDepth
  let id ← orReport (fun _ : Unit => .statementMissing) (statementId.elim (.error ()) .ok)
  let records ← orReport .request (service.searchStatement .idle id () state).1
  sayCallers ("statement " ++ id)
    ((records.map fun r => "  - " ++ heading r.method).mergeSort fun a b => decide (a ≤ b))
  let lines := (records.map fun r => (r.report.line, r.report)).mergeSort
    fun a b => decide (a.1 ≤ b.1)
  saveRecord output <| .object
    [("statement_id", .string id), ("top_callers", .array (lines.map (·.2)))]

def readJson (levels : Nat) (text : String) : Job Json :=
  match Json.readWithin levels text with
  | .ok value => return value
  | .error ⟨.tooDeep doing, _⟩ => throw (.breakdown (.shape (.tooDeep doing)))
  | .error fault => throw (.trouble (.json (fault.describe text.toList)))

def visualize (levels : Nat) (input output : String) : Job Unit := do
  let text ← readText input
  let results ← readJson levels text
  let drawing ← orBreak .shape (Drawing.ofRecord results)
  if output ≠ "" then
    writeText output drawing.dot
    sayLine ("Visualization saved to: " ++ output)
  sayLine "Visualization completed successfully!"

def Command.job (levels : Nat) : Command → Job Unit
  | .analyze repository output => CommandLine.analyze repository output
  | .topCallers repository method maxDepth includeTests output =>
    CommandLine.topCallers repository method maxDepth includeTests output
  | .statement repository statementId output => CommandLine.statement repository statementId output
  | .visualize input output => CommandLine.visualize levels input output

structure Outcome where
  status : Nat
  printed : String
  reported : String
  disk : Disk
deriving Inhabited

/-- What a command comes to that has so many levels left. -/
def Command.runWithin (levels : Nat) (command : Command) (disk : Disk) :
    Except Breakdown Outcome :=
  match command.job levels { disk } with
  | (.ok (), desk) => .ok ⟨0, desk.printed, "", desk.disk⟩
  | (.error (.trouble trouble), desk) =>
    let report := "Error during " ++ command.name.text ++ ": " ++ trouble.message ++ "\n"
    .ok ⟨1, desk.printed, report, desk.disk⟩
  | (.error (.breakdown breakdown), _) => .error breakdown

def Command.run : Command → Disk → Except Breakdown Outcome := Command.runWithin Json.usualLevels

end EntryPoints.CommandLine
