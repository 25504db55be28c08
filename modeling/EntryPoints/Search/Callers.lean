import EntryPoints.Search.Run
import EntryPoints.Code.MethodSet

/-!
# The callers of one method

The callers of a method are the methods that enclose its call sites.  A site in a
documentation comment does not count, nor one whose receiver has nothing to do with
the declaring type.

A call through an interface or a base class reaches the method as well, so the
sites of the methods that it overrides are collected too, but only those whose
receiver could hold an instance of the method's own class.

Lookups may fail.  A lookup that fails for the moment loses one call site; any other
failure ends the collection, and the callers found so far are the answer.  An answer
that was cut short is not remembered.
-/

namespace EntryPoints

variable {σ ρ : Type}

/-- The method that calls at a site, if the site counts. -/
def callerAt (base : KnowledgeBase σ) (expected : TypeSymbol)
    (implementation : Option TypeSymbol) (site : CallSite) : Lookup σ (Option Method) := do
  if ← base.isInDocComment site.location then return none
  match site.receiver with
  | none => base.enclosingMethod site.location
  | some receiver =>
    if ← base.isRelated expected receiver then
      match implementation with
      | none => base.enclosingMethod site.location
      | some owner =>
        if ← base.isCompatible receiver owner then base.enclosingMethod site.location
        else return none
    else return none

/-- What a collection gathered, and the failure that ended it early. -/
abbrev Gathered := MethodSet × Option Failure

namespace Setting

variable (setting : Setting σ ρ)

def gatherSites (expected : TypeSymbol) (implementation : Option TypeSymbol) :
    List CallSite → MethodSet → StateM (RunState σ ρ) Gathered
  | [], callers => return (callers, none)
  | site :: sites, callers => do
    match ← setting.checkpoint.run with
    | .error failure => return (callers, some failure)
    | .ok () =>
      match ← (Run.lookup (callerAt setting.base expected implementation site)).run with
      | .ok (some caller) =>
        gatherSites expected implementation sites (callers.insert caller)
      | .ok none => gatherSites expected implementation sites callers
      | .error failure =>
        if failure.isTransient then gatherSites expected implementation sites callers
        else return (callers, some failure)

/-- Collects the callers at the sites of one method. -/
def gatherDirect (m : Method) (implementation : Option TypeSymbol) (callers : MethodSet) :
    StateM (RunState σ ρ) Gathered := do
  match ← setting.checkpoint.run with
  | .error failure => return (callers, some failure)
  | .ok () =>
    let sites ← Run.withBase (setting.base.callSites m setting.scope)
    match ← gatherSites setting m.owner implementation sites.items callers with
    | (callers, some failure) => return (callers, some failure)
    | (callers, none) => return (callers, sites.failure)

def gatherRoots (owner : TypeSymbol) :
    List Method → MethodSet → StateM (RunState σ ρ) Gathered
  | [], callers => return (callers, none)
  | root :: roots, callers => do
    match ← setting.checkpoint.run with
    | .error failure => return (callers, some failure)
    | .ok () =>
      match ← gatherDirect setting root (some owner) callers with
      | (callers, some failure) => return (callers, some failure)
      | (callers, none) => gatherRoots owner roots callers

/-- Collects the callers of a method and those of the methods it overrides. -/
def gather (m : Method) (implementation : Option TypeSymbol) :
    StateM (RunState σ ρ) Gathered := do
  match ← gatherDirect setting m implementation .empty with
  | (callers, some failure) => return (callers, some failure)
  | (callers, none) =>
    match ← (Run.lookup (setting.base.overriddenRoots m)).run with
    | .error failure => return (callers, some failure)
    | .ok roots => gatherRoots setting m.owner roots callers

/-- The callers of a method, remembered if all of them could be found. -/
def callersOf (m : Method) (implementation : Option TypeSymbol := none) :
    Run σ ρ (List Method) := do
  match (← get).cache.get? m.key with
  | some callers => return callers
  | none =>
    setting.checkpoint
    match ← ExceptT.lift (gather setting m implementation) with
    | (callers, none) =>
      modify fun s => { s with cache := s.cache.put m.key callers.toList }
      return callers.toList
    | (callers, some failure) =>
      if failure.isCancellation then throw failure else return callers.toList

end Setting

end EntryPoints
