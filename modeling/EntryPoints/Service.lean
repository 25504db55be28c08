import EntryPoints.Repository
import EntryPoints.Search.Finder

/-!
# The service over a repository

A service keeps the index of one repository and the callers that its searches have
found.  Building the index anew after the sources have changed drops those callers, but
only when the build succeeds.

Whoever asks for something that needs the index waits for it.
-/

namespace EntryPoints

structure Service where
  settings : IndexSettings
  finder : Finder := {}
deriving Inhabited

structure ServiceState where
  index : IndexState := {}
  cache : CallerCache := {}
deriving Inhabited

namespace ServiceState

/-- Whether a wait for the index would end. -/
def isSettled (state : ServiceState) : Bool := state.index.isSettled

/-- The index as searches see it once the last build has ended. -/
def view (state : ServiceState) : Except Failure (KnowledgeBase IndexState) :=
  state.index.settled.map fun snapshot => snapshot.knowledgeBase

end ServiceState

namespace Service

variable {ρ α : Type} (service : Service)

def build (disk : Disk) (state : ServiceState) : Except Failure Snapshot × ServiceState :=
  let (result, index) := state.index.build service.settings disk
  (result, { state with index })

def buildInBackground (disk : Disk) (state : ServiceState) : ServiceState :=
  { state with index := state.index.buildInBackground service.settings disk }

/-- Builds the index again and forgets what was found in the old one. -/
def reindex (disk : Disk) (state : ServiceState) : Except Failure Snapshot × ServiceState :=
  match service.build disk state with
  | (.ok snapshot, state) => (.ok snapshot, { state with cache := state.cache.clear })
  | (.error failure, state) => (.error failure, state)

/-- Runs a part of a search on the state of the service. -/
def run (action : Run IndexState ρ α) (watch : ρ) (state : ServiceState) :
    Except Failure α × ρ × ServiceState :=
  let (result, after) := action ⟨state.index, watch, state.cache⟩
  (result, after.watch, ⟨after.base, after.cache⟩)

def resolve (spec : String) (state : ServiceState) : Except Failure Method :=
  (run (MethodSpec.resolve state.view spec) () state).1

def search (watcher : Watcher ρ) (start : Method) (watch : ρ) (state : ServiceState) :
    Except Failure SearchResult × ρ × ServiceState :=
  run (Run.reporting .searchFailed (service.finder.search state.view watcher start)) watch state

/-- Searches the top callers of the mapper method behind a statement. -/
def searchStatement (watcher : Watcher ρ) (statementId : String) (watch : ρ)
    (state : ServiceState) : Except Failure (List StatementCaller) × ρ × ServiceState :=
  run (Run.reporting .statementSearchFailed
    (service.finder.searchStatement state.view watcher statementId)) watch state

structure Summary where
  index : Snapshot.Summary
  repository : Option String
  cachedCallerSets : Nat
deriving Repr, Inhabited

def summary (state : ServiceState) : Except Failure Summary :=
  state.index.settled.map fun snapshot =>
    ⟨snapshot.summary, service.settings.repository, state.cache.size⟩

end Service

end EntryPoints
