import EntryPoints.Facts.Expressions
import Std.Data.HashMap

/-!
# What declarations say

A type is declared at a place: at the top of the file, in the body of another type, or
inside of a method.  The place decides its names.  A member extends the names of the type
around it, an anonymous class gets the next number of the type around it, and a local
class the next number of its own simple name there; the last two have no qualified name.

A method owns the documentation comment in front of it, so its location starts there.
Its id names the place where the declaration itself starts.
-/

namespace EntryPoints

open Java

/-- Where the tree of a file is being read. -/
structure Place where
  file : SourceFile
  package : String
  /-- The type whose body is being read. -/
  owner : Option TypeDecl := none
  /-- The id of the method that is being read. -/
  method : Option String := none
  /-- The constructs around, the innermost first. -/
  around : List Node := []

/-- The numbers that were given to classes without a qualified name, under the type
around them, or under that type and a simple name. -/
abbrev Numbering := Std.HashMap String Nat

def Numbering.next (numbering : Numbering) (label : String) : Nat × Numbering :=
  let n := numbering.getD label 0 + 1
  (n, numbering.insert label n)

def isBodyPart (node : Node) : Bool := node.role == .body

def isClassBody (node : Node) : Bool := node.kind == .classBody

/-- Whether a part of a creation or an enum constant is the body of a class. -/
def opensClass (kind : Kind) (part : Node) : Bool :=
  if kind = .enumConstant then isBodyPart part else isClassBody part

namespace Place

variable (place : Place)

def ownerName : Option String := place.owner.map (·.binaryName)

/-- The type that holds what is written here.  A type with an empty binary name holds nothing. -/
def holder : Option TypeDecl := place.owner.filter (·.binaryName ≠ "")

def enter (node : Node) : Place := { place with around := node :: place.around }

def inType (decl : TypeDecl) : Place := { place with owner := some decl, method := none }

def inMethod (id : String) : Place := { place with method := some id }

def locate (node : Node) : Location := place.file.locate node.span

/-! ## Types -/

def typeKind? : Kind → Option TypeKind
  | .classDeclaration => some .classType
  | .interfaceDeclaration => some .interfaceType
  | .enumDeclaration => some .enumType
  | .recordDeclaration => some .recordType
  | .annotationDeclaration => some .annotationType
  | _ => none

def typeParameter (parameter : Node) : Option (String × List String) :=
  (parameter.ofKind? .typeName).map fun name =>
    (name.text, ((parameter.ofKind? .typeBound).map fun bound =>
      bound.parts.map place.file.typeText).getD [])

def typeParameters (node : Node) : List (String × List String) :=
  match node.child? .typeParameters with
  | none => []
  | some list => (list.children.filter (·.kind == .typeParameter)).filterMap place.typeParameter

def superclass (node : Node) : Option String :=
  ((node.child? .superclass).bind (·.parts.head?)).map place.file.typeText

/-- The interfaces that a type implements or extends. -/
def interfaces (node : Node) : List String :=
  (node.children.filter fun c => c.kind == .implementedTypes || c.kind == .extendedTypes).flatMap
    fun clause => (clause.children.filter (·.kind == .typeList)).flatMap
      fun list => list.parts.map place.file.typeText

/-- The components of a record are fields of it. -/
def components (node : Node) : List (String × String) :=
  if node.kind = .recordDeclaration then
    match node.child? .parameters with
    | none => []
    | some list => (list.children.filter (·.kind == .formalParameter)).filterMap fun parameter =>
        (parameter.child? .name).map fun name =>
          (name.text, (place.file.typeOf? parameter).getD "")
  else []

def fields (node : Node) : List (String × String) :=
  place.components node ++ ((node.child? .body).map place.file.fieldsIn).getD []

/-- The binary name and the qualified name of a type that is declared here. -/
def namesOf (name : String) (numbering : Numbering) :
    (String × Option String) × Numbering :=
  match place.owner, place.method with
  | none, _ =>
    let full := if place.package = "" then name else place.package ++ "." ++ name
    ((full, some full), numbering)
  | some owner, none =>
    ((owner.binaryName ++ "$" ++ name, owner.qualifiedName.map (· ++ "." ++ name)), numbering)
  | some owner, some _ =>
    let (n, numbering) := numbering.next (owner.binaryName ++ "#" ++ name)
    ((owner.binaryName ++ "$" ++ toString n ++ name, none), numbering)

def declareType (kind : TypeKind) (node : Node) (numbering : Numbering) : TypeDecl × Numbering :=
  let name := SourceFile.nameOf node
  let ((binaryName, qualifiedName), numbering) := place.namesOf name numbering
  ({ binaryName, name, kind, qualifiedName
     outer := place.ownerName
     superclass := place.superclass node
     interfaces := place.interfaces node
     typeParameters := place.typeParameters node
     fields := place.fields node
     location := some (place.locate node) }, numbering)

/-- The class that the body behind a creation or an enum constant declares.  It covers the
whole creation, so that the method around it is the one that creates its object. -/
def declareAnonymous (owner : TypeDecl) (superclass : Option String) (node : Node)
    (numbering : Numbering) : TypeDecl × Numbering :=
  let (n, numbering) := numbering.next owner.binaryName
  ({ binaryName := owner.binaryName ++ "$" ++ toString n
     name := ""
     isAnonymous := true
     outer := some owner.binaryName
     superclass
     fields := ((node.children.find? (opensClass node.kind)).map place.file.fieldsIn).getD []
     location := some (place.locate node) }, numbering)

/-! ## Methods -/

def spreadType (parameter : Node) : String :=
  match parameter.parts.find? fun c =>
      !([Kind.modifiers, .annotationUse, .variableDeclarator].contains c.kind) with
  | some type => place.file.typeText type
  | none => ""

def parameterType (parameter : Node) : Option String :=
  match parameter.kind with
  | .formalParameter => some ((place.file.typeOf? parameter).getD "")
  | .spreadParameter => some (place.spreadType parameter ++ "...")
  | _ => none

def parameterTypes (node : Node) : List String :=
  ((node.child? .parameters).map fun list => list.children.filterMap place.parameterType).getD []

def hasModifier (word : String) (node : Node) : Bool :=
  ((node.ofKind? .modifiers).map Node.children).any fun marks =>
    marks.any fun c => c.kind == .keyword && c.text == word

/-- Where a declaration starts, with the documentation comment in front of it. -/
def startWithComment (before : Option Node) (node : Node) : Nat :=
  match before with
  | some comment =>
    if comment.kind = .blockComment ∧ isDocComment comment.text then comment.span.start
    else node.span.start
  | none => node.span.start

def declareMethod (owner : TypeDecl) (before : Option Node) (node : Node) : MethodDecl :=
  let name := SourceFile.nameOf node
  let isConstructor := node.kind == .constructorDeclaration
  { id := owner.binaryName ++ "#" ++ name ++ "@" ++ toString node.span.start
    owner := owner.binaryName
    name
    parameters := place.parameterTypes node
    returnType := if isConstructor then none else place.file.typeOf? node
    isConstructor
    isAbstract := hasModifier "abstract" node ||
      (!isConstructor && (node.child? .body).isNone)
    isStatic := hasModifier "static" node
    typeParameters := place.typeParameters node
    location := some { place.locate node with start := startWithComment before node } }

end Place

end EntryPoints
