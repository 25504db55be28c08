import EntryPoints.KnowledgeBase
import EntryPoints.Search.Cache

/-!
# The setting of a search

A search runs over one view of a knowledge base and is watched from outside.  The
watcher may ask it to stop at every checkpoint, and it is told of every item that is
taken up; it may break off the search then.  What a run moves is the state of the
knowledge base, the state of the watcher, and the caller cache; all three survive a
failure.
-/

namespace EntryPoints

/-- How far a search has come when it takes up an item: items taken up, top callers
found, items waiting. -/
structure Progress where
  processed : Nat
  found : Nat
  queued : Nat
deriving DecidableEq, Repr, Inhabited

structure Watcher (ρ : Type) where
  isCancelled : StateM ρ Bool
  report : Progress → StateM ρ (Option Failure)

/-- A watcher that lets every search run to its end. -/
def Watcher.idle {ρ : Type} : Watcher ρ := ⟨pure false, fun _ => pure none⟩

structure RunState (σ ρ : Type) where
  base : σ
  watch : ρ
  cache : CallerCache

abbrev Run (σ ρ α : Type) := ExceptT Failure (StateM (RunState σ ρ)) α

namespace Run

variable {σ ρ α : Type}

def withBase (question : StateM σ α) : StateM (RunState σ ρ) α := fun s =>
  let (answer, base) := question s.base
  (answer, { s with base })

def withWatch (question : StateM ρ α) : StateM (RunState σ ρ) α := fun s =>
  let (answer, watch) := question s.watch
  (answer, { s with watch })

def lookup (question : Lookup σ α) : Run σ ρ α := withBase question

def askBase (question : StateM σ α) : Run σ ρ α := ExceptT.lift (withBase question)

def askWatch (question : StateM ρ α) : Run σ ρ α := ExceptT.lift (withWatch question)

/-- Asks the watcher, and then the knowledge base, whether to go on. -/
def checkpoint (base : KnowledgeBase σ) (watcher : Watcher ρ) : Run σ ρ Unit := do
  if ← askWatch watcher.isCancelled then throw Failure.cancelledByOwner
  if ← askBase base.cancellationRequested then throw Failure.cancelledByKnowledgeBase

end Run

/-- What every part of one search works with. -/
structure Setting (σ ρ : Type) where
  base : KnowledgeBase σ
  scope : Scope
  checkpoint : Run σ ρ Unit
  /-- Names of the methods that are implemented by lambdas, as `owner.method`. -/
  functional : List String

end EntryPoints
