import EntryPoints.Facts.Survey
import EntryPoints.File.Access
import EntryPoints.File.Scan
import EntryPoints.Index.Snapshot

/-!
# The index of a repository

The index of a repository is a snapshot of its sources that is replaced by building
again.  Those who wait for the index wait until the last build has ended; a build that
fails leaves the snapshot as it was and is remembered as long as there is none.

A build that is started in the background withdraws the index at once, and one in the
foreground only after it has found that there is a repository to look at.
-/

namespace EntryPoints

structure IndexSettings where
  repository : Option String := none
  rules : ScanRules := .ofPatterns [] []
  scope : Scope := default
  parser : Java.Parser := Java.parse
deriving Inhabited

namespace IndexSettings

variable (settings : IndexSettings)

/-- A snapshot of texts that are given with their paths. -/
def snapshotOf (sources : List (String × String)) : Snapshot :=
  .ofFiles (sources.map fun (path, text) => .analyze settings.parser path text settings.repository)
    settings.scope

/-- The sources of a repository that can be read. -/
def sourcesOf (disk : Disk) (repository : String) : Except Failure (List (String × String)) := do
  let found ← settings.rules.scanAt disk repository
  return found.sortedPaths.filterMap fun path => (disk.sourceText? repository path).map (path, ·)

/-- The repository to look at, if there is one. -/
def repository? : Option String := settings.repository.filter (· ≠ "")

end IndexSettings

structure IndexState where
  snapshot : Option Snapshot := none
  /-- Whether the last build has ended. -/
  isSettled : Bool := false
  failure : Option Failure := none
deriving Inhabited

namespace IndexState

def install (snapshot : Snapshot) : IndexState := ⟨some snapshot, true, none⟩

/-- Builds the index from what is on a disk. -/
def build (settings : IndexSettings) (disk : Disk) (state : IndexState) :
    Except Failure Snapshot × IndexState :=
  match settings.repository? with
  | none => (.error .noRepository, state)
  | some repository =>
    match settings.sourcesOf disk repository with
    | .ok sources =>
      let snapshot := settings.snapshotOf sources
      (.ok snapshot, install snapshot)
    | .error failure =>
      (.error (.buildFailed failure), { state with isSettled := true, failure := some failure })

/-- Builds the index in the background and waits for the end of it. -/
def buildInBackground (settings : IndexSettings) (disk : Disk) (state : IndexState) : IndexState :=
  (build settings disk { state with isSettled := false }).2

variable (state : IndexState)

def isReady : Bool := state.isSettled && state.snapshot.isSome

/-- The snapshot, whether or not a build is going on. -/
def current : Except Failure Snapshot :=
  match state.snapshot with
  | some snapshot => .ok snapshot
  | none => .error .indexMissing

/-- The snapshot after the last build has ended. -/
def settled : Except Failure Snapshot :=
  match state.snapshot with
  | some snapshot => .ok snapshot
  | none => .error (.unusableIndex state.failure)

/-- What waiting for a time gives, which is written as `seconds`. -/
def awaitFor (seconds : String) : Except Failure Snapshot :=
  if state.isSettled then state.settled else .error (.indexLate seconds)

end IndexState

end EntryPoints
