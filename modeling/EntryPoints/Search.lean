import EntryPoints.Search.Callers
import EntryPoints.Search.Indirection

/-!
# The search for top callers

A search walks the call graph upwards from one method, breadth first, and collects
the methods that nobody calls.  It goes level by level: the frontier holds the
methods of one distance from the start, and expanding it gives the next one.  A
method is expanded when it is first taken up; later occurrences of its key are
skipped.  Methods beyond the depth limit are not expanded but noted as cut off.

The levels that are still allowed decrease with every step, so the search ends for
every knowledge base whose lookups end, however large or cyclic the graph is.
-/

namespace EntryPoints

variable {σ ρ : Type}

structure Tally where
  found : MethodSet := .empty
  visited : Std.HashSet String := ∅
  processed : Nat := 0
  /-- Keys of the methods that were cut off, the latest first. -/
  cutOff : List String := []
deriving Inhabited

structure SearchResult where
  start : Method
  topCallers : List Method
  visitedCount : Nat
  processedCount : Nat
  truncatedKeys : List String
deriving Inhabited

def SearchResult.truncated (r : SearchResult) : Bool := !r.truncatedKeys.isEmpty

namespace Search

variable (setting : Setting σ ρ) (watcher : Watcher ρ)

/-- Takes up one item while `queued` others wait. -/
def takeUp (queued : Nat) (tally : Tally) : Run σ ρ Tally := do
  setting.checkpoint
  let tally := { tally with processed := tally.processed + 1 }
  match ← Run.askWatch (watcher.report ⟨tally.processed, tally.found.size, queued⟩) with
  | some failure => throw failure
  | none => return tally

/-- The methods one step up from `m`, and whether `m` is a top caller. -/
def expand (m : Method) : Run σ ρ (List Method × Bool) := do
  match ← setting.substitutes m with
  | some methods => return (methods, false)
  | none =>
    match ← setting.callersOf m with
    | [] => return ([], !(← setting.isFunctional m))
    | callers => return (callers, false)

def visit (m : Method) (tally : Tally) : Run σ ρ (List Method × Tally) := do
  if tally.visited.contains m.key then return ([], tally)
  let tally := { tally with visited := tally.visited.insert m.key }
  let (methods, isTop) ← expand setting m
  return (methods, if isTop then { tally with found := tally.found.insert m } else tally)

/-- Visits the methods of one level in order and gathers those of the next. -/
def sweep : List Method → Array Method → Tally → Run σ ρ (Array Method × Tally)
  | [], next, tally => return (next, tally)
  | m :: level, next, tally => do
    let tally ← takeUp setting watcher (level.length + next.size) tally
    let (methods, tally) ← visit setting m tally
    sweep level (next ++ methods) tally

/-- Takes up the methods beyond the limit and notes them as cut off. -/
def cutOff : List Method → Tally → Run σ ρ Tally
  | [], tally => return tally
  | m :: level, tally => do
    let tally ← takeUp setting watcher level.length tally
    cutOff level { tally with cutOff := m.key :: tally.cutOff }

/-- Explores a frontier and as many levels above it as are allowed. -/
def explore : (levels : Nat) → (frontier : List Method) → Tally → Run σ ρ Tally
  | 0, frontier, tally => cutOff setting watcher frontier tally
  | levels + 1, frontier, tally => do
    let (next, tally) ← sweep setting watcher frontier #[] tally
    if next.isEmpty then return tally else explore levels next.toList tally

/-- The levels that a depth limit allows: the start is at depth zero. -/
def levelsWithin (maxDepth : Int) : Nat := (maxDepth + 1).toNat

def Tally.toResult (start : Method) (tally : Tally) : SearchResult where
  start
  topCallers := (tally.found.erase start.key).toList
  visitedCount := tally.visited.size
  processedCount := tally.processed
  truncatedKeys := tally.cutOff.reverse

/-- Searches the top callers of `start` up to a depth limit. -/
def topCallers (start : Method) (maxDepth : Int) : Run σ ρ SearchResult := do
  let tally ← explore setting watcher (levelsWithin maxDepth) [start] {}
  return Tally.toResult start tally

end Search

end EntryPoints
