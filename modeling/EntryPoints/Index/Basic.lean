import EntryPoints.Facts.Basic
import EntryPoints.Table

/-!
# Types and methods by name

The index of a set of files holds the types and methods that they declare.  A binary
name belongs to one type: when several files declare it, the last declaration counts,
in the place of the first.  Methods whose owner is not declared are left out.

Every method comes with its declaration and its file, from which its parameter types
are read.
-/

namespace EntryPoints

structure TypeEntry where
  symbol : TypeSymbol
  decl : TypeDecl
  file : FileFacts
deriving Inhabited

structure MethodEntry where
  decl : MethodDecl
  file : FileFacts
deriving Inhabited

structure CodeIndex where
  types : Table String TypeEntry
  /-- Binary names by qualified name. -/
  qualified : Std.HashMap String String
  /-- Binary names by simple name. -/
  simple : Std.HashMap String (List String)
  methods : Table Method MethodEntry
  /-- Declarations by method id. -/
  declarations : Std.HashMap String MethodDecl
  methodsOf : Std.HashMap String (List Method)
  methodsIn : Std.HashMap String (List Method)
deriving Inhabited

namespace CodeIndex

def symbolOf (decl : TypeDecl) : TypeSymbol where
  qualifiedName := decl.qualifiedName
  name := decl.name
  binaryName := decl.binaryName
  kind := decl.kind
  isAnonymous := decl.isAnonymous
  location := decl.location

def methodOf (owner : TypeSymbol) (decl : MethodDecl) : Method where
  owner
  name := decl.name
  parameters := decl.parameters
  returnType := decl.returnType
  isConstructor := decl.isConstructor
  isAbstract := decl.isAbstract
  isStatic := decl.isStatic
  location := decl.location

/-- The type declarations of several files, in order. -/
def typeEntries (files : List FileFacts) : List TypeEntry :=
  files.flatMap fun file => file.types.map fun decl => ⟨symbolOf decl, decl, file⟩

def typesOf (files : List FileFacts) : Table String TypeEntry :=
  .ofList ((typeEntries files).map fun entry => (entry.decl.binaryName, entry))

/-- The methods of several files with their declarations, in order. -/
def methodEntries (types : Table String TypeEntry) (files : List FileFacts) :
    List (Method × MethodEntry) :=
  files.flatMap fun file => file.methods.filterMap fun decl =>
    (types.get? decl.owner).map fun owner => (methodOf owner.symbol decl, ⟨decl, file⟩)

def isQualified (entry : TypeEntry) : Bool := entry.decl.qualifiedName.getD "" ≠ ""

def isNamed (entry : TypeEntry) : Bool := entry.decl.name ≠ "" && !entry.decl.isAnonymous

def ofFiles (files : List FileFacts) : CodeIndex :=
  let entries := typeEntries files
  let types := typesOf files
  let methods := methodEntries types files
  { types
    qualified := .ofList <| (entries.filter isQualified).map fun entry =>
      (entry.decl.qualifiedName.getD "", entry.decl.binaryName)
    simple := (groupBy (·.decl.name) (entries.filter isNamed)).map fun _ named =>
      named.map (·.decl.binaryName)
    methods := .ofList methods
    declarations := .ofList <| methods.map fun (_, entry) => (entry.decl.id, entry.decl)
    methodsOf := (groupBy (·.2.decl.owner) methods).map fun _ ms => ms.map (·.1)
    methodsIn := (groupBy (·.2.file.file) methods).map fun _ ms => ms.map (·.1) }

variable (index : CodeIndex)

def type? (binaryName : String) : Option TypeEntry := index.types.get? binaryName

def qualified? (name : String) : Option TypeEntry :=
  index.qualified[name]?.bind index.type?

/-- A type and the types around it, the innermost first. -/
def outward : (steps : Nat) → Option String → List TypeEntry
  | 0, _ => []
  | _, none => []
  | steps + 1, some owner =>
    if owner = "" then []
    else
      match index.type? owner with
      | none => []
      | some entry => entry :: outward steps entry.decl.outer

/-- The types around a place, given the owner of the place. -/
def ownersFrom (owner : Option String) : List TypeEntry := index.outward index.types.size owner

def methodsDeclaredBy (binaryName : String) : List Method := index.methodsOf.getD binaryName []

def methodsOfFile (file : String) : List Method := index.methodsIn.getD file []

def entryOf (m : Method) : Option MethodEntry := index.methods.get? m

/-- All types, in the order in which they were first declared. -/
def allTypes : List TypeSymbol := index.types.values.map (·.symbol)

/-- All methods, in the order in which they were first declared. -/
def allMethods : List Method := index.methods.keys

end CodeIndex

end EntryPoints
