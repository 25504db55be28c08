import EntryPoints.Code.Enclosing
import EntryPoints.Index.Resolution

/-!
# Snapshots of a set of files

A snapshot is an index together with everything that the files invoke, resolved once,
and the places of their documentation comments.  It answers the queries of a search and
never changes.

A method is called at an invocation of its name when it is among the methods that the
invocation resolves to, or when the invocation could not be resolved at all and has the
right number of arguments.  A reference that names no arguments may mean any overload
of the type it resolves to.
-/

namespace EntryPoints

structure IndexedCall where
  call : Invocation
  resolved : ResolvedCall
deriving Inhabited

structure Snapshot where
  files : List FileFacts
  scope : Scope
  index : CodeIndex
  /-- The invocations by the name of what they invoke. -/
  calls : Std.HashMap String (List IndexedCall)
  functional : List FunctionalExpression
  docComments : Std.HashMap String (List Location)
deriving Inhabited

namespace Snapshot

def resolveCalls (index : CodeIndex) (file : FileFacts) : List IndexedCall :=
  file.invocations.map fun call =>
    ⟨call, index.resolve (index.viewOf file call.owner call.method) call⟩

def resolveUses (index : CodeIndex) (file : FileFacts) : List FunctionalExpression :=
  file.functionalUses.map fun use =>
    ⟨use.kind, use.location, index.targetType use (index.viewOf file use.owner use.method)⟩

def ofFiles (files : List FileFacts) (scope : Scope) : Snapshot :=
  let index := CodeIndex.ofFiles files
  { files
    scope
    index
    calls := groupBy (·.call.name) (files.flatMap (resolveCalls index))
    functional := files.flatMap (resolveUses index)
    docComments := .ofList <| (files.filter fun file => !file.docComments.isEmpty).map
      fun file => (file.file, file.docComments) }

def mayCall (m : Method) (site : IndexedCall) : Bool :=
  let resolved := site.resolved
  if resolved.targets.isEmpty then
    !resolved.isKnown && m.acceptsCount site.call.argumentCount
  else if site.call.argumentCount.isNone then
    resolved.targets.any fun target => target.owner.id == m.owner.id
  else resolved.targets.contains m

/-- The receiver of an invocation; one that is not qualified is received by the type that
declares what it calls. -/
def receiverOf (site : IndexedCall) : Option TypeSymbol :=
  match site.call.receiver, site.resolved.targets with
  | none, target :: _ => some target.owner
  | _, _ => site.resolved.receiver

def toCallSite (site : IndexedCall) : CallSite :=
  ⟨site.call.location, receiverOf site, site.call.kind⟩

variable (snapshot : Snapshot)

def callSites (m : Method) (scope : Scope) : List CallSite :=
  ((snapshot.calls.getD m.name []).filter fun site =>
    (site.call.kind == .creation) == m.isConstructor && scope.contains site.call.location &&
      mayCall m site).map toCallSite

def functionalImplementations (t : TypeSymbol) (scope : Scope) : List FunctionalExpression :=
  snapshot.functional.filter fun expression =>
    scope.contains expression.location && expression.target.any (·.id == t.id)

def enclosingMethod (place : Location) : Option Method :=
  narrowestAround place (snapshot.index.methodsOfFile place.file)

def isInDocComment (place : Location) : Bool :=
  (snapshot.docComments.getD place.file []).any (·.contains place)

/-- The methods of a name that a type declares, or that the library does. -/
def methodsNamed (owner name : String) : List Method :=
  let binaryName := snapshot.index.qualified.getD owner owner
  if snapshot.index.types.contains binaryName then
    (snapshot.index.methodsDeclaredBy binaryName).filter (·.name == name)
  else (Library.methodOf (Library.externalType owner)).toList.filter (·.name == name)

def types : List TypeSymbol := snapshot.index.allTypes

def methods : List Method := snapshot.index.allMethods

/-- A snapshot answers from what it holds; its lookups do not fail. -/
def knowledgeBase {σ : Type} : KnowledgeBase σ where
  callSites m scope := return ⟨snapshot.callSites m scope, none⟩
  overriddenRoots m := return snapshot.index.roots m
  functionalImplementations t scope := return ⟨snapshot.functionalImplementations t scope, none⟩
  enclosingMethod place := return snapshot.enclosingMethod place
  isSubtypeOrSelf sub sup := return snapshot.index.isSubtypeOrSelf sub sup
  isInDocComment place := return snapshot.isInDocComment place
  productionScope := return snapshot.scope
  methodsNamed owner name := return snapshot.methodsNamed owner name
  cancellationRequested := return false

structure Summary where
  files : Nat
  productionFiles : Nat
  types : Nat
  methods : Nat
  invocations : Nat
  functionalExpressions : Nat
deriving DecidableEq, Repr, Inhabited

def summary : Summary where
  files := snapshot.files.length
  productionFiles := (snapshot.files.filter fun file => snapshot.scope.containsFile file.file).length
  types := snapshot.index.types.size
  methods := snapshot.index.methods.size
  invocations := (snapshot.files.flatMap fun file => file.invocations).length
  functionalExpressions := snapshot.functional.length

end Snapshot

end EntryPoints
