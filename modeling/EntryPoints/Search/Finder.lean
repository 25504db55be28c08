import EntryPoints.Search
import EntryPoints.MethodSpec

/-!
# Searches of one session

A finder is a depth limit, a list of functional methods and the caller cache that the
searches of a session share.  Every search first trims the cache, then waits for a
view of the code, and then runs on that view.

A statement id names a mapper interface and one of its methods; the answer is the
union of the searches from every method of that name, one record per key.
-/

namespace EntryPoints

variable {σ ρ : Type}

def MethodSpec.resolve (view : Except Failure (KnowledgeBase σ)) (spec : String) : Run σ ρ Method := do
  let parsed ← (liftM (MethodSpec.parse spec) : Run σ ρ MethodSpec)
  let base ← (liftM view : Run σ ρ (KnowledgeBase σ))
  let candidates ← Run.lookup (base.methodsNamed parsed.owner parsed.name)
  liftM (parsed.pick spec candidates)

structure Finder where
  maxDepth : Int := 50
  functional : List String := functionalMethods
deriving Inhabited

/-- A top caller of the mapper method behind a statement. -/
structure StatementCaller where
  method : Method
  statementId : String
  comment : String := ""
deriving Inhabited

namespace StatementCaller

def simpleId (c : StatementCaller) : String := TypeText.lastSegment c.statementId

end StatementCaller

namespace Finder

variable (finder : Finder)

/-- What the searches of a finder work with on one view of the code. -/
def setting (view : KnowledgeBase σ) (scope : Scope) (checkpoint : Run σ ρ Unit) :
    Setting σ ρ where
  base := view
  scope
  checkpoint
  functional := finder.functional

/-- Searches the top callers of `start` on a view that may turn out not to be there. -/
def search (view : Except Failure (KnowledgeBase σ)) (watcher : Watcher ρ) (start : Method) :
    Run σ ρ SearchResult := do
  modify fun s => { s with cache := s.cache.trim }
  let base ← (liftM view : Run σ ρ (KnowledgeBase σ))
  let scope ← Run.lookup base.productionScope
  Search.topCallers (finder.setting base scope (Run.checkpoint base watcher)) watcher start
    finder.maxDepth

/-- Adds the top callers of every method in turn. -/
def gatherTopCallers (view : Except Failure (KnowledgeBase σ)) (watcher : Watcher ρ) :
    List Method → MethodSet → Run σ ρ MethodSet
  | [], callers => return callers
  | m :: rest, callers => do
    let result ← finder.search view watcher m
    gatherTopCallers view watcher rest (result.topCallers.foldl MethodSet.insert callers)

/-- Searches the top callers of the mapper method behind a statement. -/
def searchStatement (view : Except Failure (KnowledgeBase σ)) (watcher : Watcher ρ)
    (statementId : String) : Run σ ρ (List StatementCaller) := do
  let mapper := String.ofList (Text.beforeLast '.' statementId.toList)
  let name := TypeText.lastSegment statementId
  if mapper = "" ∨ name = "" then return []
  let base ← (liftM view : Run σ ρ (KnowledgeBase σ))
  let methods ← Run.lookup (base.methodsNamed mapper name)
  let callers ← finder.gatherTopCallers view watcher methods .empty
  return callers.toList.map fun method => { method, statementId }

end Finder

/-- Reports an unforeseen failure as the cause of a failed request. -/
def Run.reporting {α : Type} (wrap : Failure → Failure) (action : Run σ ρ α) : Run σ ρ α :=
  tryCatch action fun failure =>
    throw (if failure.isForeseen then failure else wrap failure)

end EntryPoints
