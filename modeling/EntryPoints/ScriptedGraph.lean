import EntryPoints.Code.Enclosing
import EntryPoints.KnowledgeBase
import EntryPoints.Walk

/-!
# Call graphs written down as lists

A scripted graph is a knowledge base whose answers are listed in advance: the types
with their supertypes, the methods with what they override and where they are called,
and the lambdas of each interface.  Types and methods are referred to by their
position.  A script can also make single queries fail, and it can ask the search to
stop after a number of checkpoints.

The state counts the call-site queries and the checkpoints that are left.
-/

namespace EntryPoints

/-- The query that a scripted failure belongs to. -/
inductive ScriptedQuery where
  | callSites
  | overriddenRoots
  | functionalImplementations
  | enclosingMethod
  | isSubtypeOrSelf
  | isInDocComment
  | productionScope
  | methodsNamed
deriving DecidableEq, Repr, Inhabited

inductive ScriptedSubject where
  | position (n : Option Nat)
  | place (location : Location)
  | name (text : String)
  | everything
deriving DecidableEq, Repr, Inhabited

structure ScriptedFailure where
  query : ScriptedQuery
  subject : ScriptedSubject
  failure : Failure
deriving Inhabited

structure ScriptedGraph where
  types : List TypeSymbol := []
  methods : List Method := []
  supertypes : List (Option Nat × List Nat) := []
  overridden : List (Option Nat × List Nat) := []
  lambdas : List (Option Nat × List Location) := []
  calls : List (Option Nat × List CallSite) := []
  docComments : List Location := []
  failures : List ScriptedFailure := []
  cancelAfter : Option Int := none
  scope : Scope
deriving Inhabited

namespace ScriptedGraph

structure State where
  queries : Nat := 0
  checkpointsLeft : Option Int := none
deriving Repr, Inhabited

variable (graph : ScriptedGraph)

def initial : State := { checkpointsLeft := graph.cancelAfter }

/-- The last entry under a position; nothing when there is none. -/
def entryAt {α : Type} (entries : List (Option Nat × List α)) (n : Option Nat) : List α :=
  match entries.reverse.find? (·.1 == n) with
  | some entry => entry.2
  | none => []

def typePosition (t : TypeSymbol) : Option Nat := graph.types.findIdx? (· == t)

def methodPosition (m : Method) : Option Nat := graph.methods.findIdx? (· == m)

def failureOf (query : ScriptedQuery) (subject : ScriptedSubject) : Option Failure :=
  (graph.failures.reverse.find? fun f => f.query == query && f.subject == subject).map (·.failure)

/-- Fails if the script says so for this query and subject. -/
def mayFail (query : ScriptedQuery) (subject : ScriptedSubject) : Lookup State Unit :=
  match graph.failureOf query subject with
  | some failure => throw failure
  | none => return ()

def supertypesOf (t : TypeSymbol) : List TypeSymbol :=
  (entryAt graph.supertypes (graph.typePosition t)).filterMap fun n => graph.types[n]?

/-- A type and its ancestors, nearest first, each position once. -/
def ancestors (t : TypeSymbol) : List TypeSymbol :=
  Walk.visit graph.typePosition graph.supertypesOf (fun _ => 0) (graph.types.length + 1) [t] []

/-- Looks for `sup` among the ancestors; each one that is passed may fail. -/
def findAncestor (sup : TypeSymbol) : List TypeSymbol → Lookup State Bool
  | [] => return false
  | t :: rest => do
    if t == sup then return true
    graph.mayFail .isSubtypeOrSelf (.position (graph.typePosition t))
    findAncestor sup rest

def knowledgeBase : KnowledgeBase State where
  callSites m _ := do
    modify fun s => { s with queries := s.queries + 1 }
    let n := graph.methodPosition m
    match graph.failureOf .callSites (.position n) with
    | some failure => return ⟨[], some failure⟩
    | none => return ⟨entryAt graph.calls n, none⟩
  overriddenRoots m := do
    let n := graph.methodPosition m
    graph.mayFail .overriddenRoots (.position n)
    return (entryAt graph.overridden n).filterMap fun k => graph.methods[k]?
  functionalImplementations t _ := do
    let n := graph.typePosition t
    match graph.failureOf .functionalImplementations (.position n) with
    | some failure => return ⟨[], some failure⟩
    | none => return ⟨(entryAt graph.lambdas n).map fun place => ⟨.lambda, place, some t⟩, none⟩
  enclosingMethod place := do
    graph.mayFail .enclosingMethod (.place place)
    return narrowestAround place graph.methods
  isSubtypeOrSelf sub sup := graph.findAncestor sup (graph.ancestors sub)
  isInDocComment place := do
    graph.mayFail .isInDocComment (.place place)
    return graph.docComments.any (·.contains place)
  productionScope := do
    graph.mayFail .productionScope .everything
    return graph.scope
  methodsNamed owner name := do
    graph.mayFail .methodsNamed (.name (owner ++ "." ++ name))
    return graph.methods.filter fun m => m.owner.qualifiedName == some owner && m.name == name
  cancellationRequested := do
    match (← get).checkpointsLeft with
    | none => return false
    | some left =>
      modify fun s => { s with checkpointsLeft := some (left - 1) }
      return decide (left - 1 < 0)

end ScriptedGraph

end EntryPoints
