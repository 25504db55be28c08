import EntryPoints.Facts.Declarations
import EntryPoints.Facts.Reference
import EntryPoints.File.Path

/-!
# The facts of a file

The tree of a file is read from top to bottom, and the facts are listed in the order of
the text.  Of a type declaration only the body is read, and nothing of one without a name;
of an enum constant only the arguments and the body are read.  The body of an anonymous
class is read after everything else in the creation.

What is written inside of a type belongs to it: to the method that is being read if
there is one, and else to the type alone.
-/

namespace EntryPoints

open Java

inductive Fact where
  | type (decl : TypeDecl)
  | method (decl : MethodDecl)
  | invocation (call : Invocation)
  | functionalUse (use : FunctionalUse)
  | docComment (location : Location)
deriving Repr, Inhabited

namespace Place

variable (place : Place)

def functionalUse (kind : FunctionKind) (node : Node) : FunctionalUse where
  kind
  target := place.file.targetHint place.ownerName place.method place.around node
  owner := place.ownerName
  method := place.method
  location := place.locate node

/-- The constructor call that opens a constructor, of a sibling or of the superclass. -/
def chainingOf (owner : TypeDecl) (node : Node) : Option Invocation :=
  match node.children.find? fun c => c.kind == .this || c.kind == .super with
  | none => none
  | some target =>
    let (type, receiver) :=
      if target.kind = .this then (owner.name, Receiver.this)
      else (owner.superclass.getD "", .super)
    if type = "" then none
    else some (place.file.creationOf type receiver place.ownerName place.method place.around node)

/-- What stands on the two sides of a method reference. -/
def sidesOf (node : Node) : List Node := node.parts.filter (·.kind != .typeArguments)

/-- The invocation that a method reference stands for.  It names no arguments. -/
def referenceOf (node : Node) : Option Invocation :=
  match sidesOf node, node.children.getLast? with
  | qualifier :: others, some last =>
    let called (kind : CallKind) (name : String) (receiver : Receiver) : Invocation :=
      { kind, name, argumentCount := none, receiver := some receiver, owner := place.ownerName,
        method := place.method, location := place.locate node, argumentTypes := none }
    if last.kind = .keyword ∧ last.text = "new" then
      let type := place.file.typeText qualifier
      some (called .creation (TypeText.simpleName type) (.typed type))
    else if last.kind = .identifier ∧ others ≠ [] then
      some (called .methodReference last.text
        (place.file.receiverOf (node :: place.around) qualifier))
    else none
  | _, _ => none

/-- A method that a documentation comment mentions. -/
def mentionOf (comment : Node) (reference : DocReference) : Invocation where
  kind := .documentation
  name := reference.name
  argumentCount := reference.parameterTypes.map List.length
  receiver := if reference.type = "" then none else some (.typed reference.type)
  owner := place.ownerName
  method := place.method
  location := place.locate comment
  argumentTypes := reference.parameterTypes.map (·.map some)

def commentFacts (comment : Node) : List Fact :=
  if isDocComment comment.text then
    .docComment (place.locate comment) ::
      (if place.holder.isSome then
        (DocReference.allIn comment.text).map fun r => .invocation (place.mentionOf comment r)
      else [])
  else []

/-- The facts that a node states by itself. -/
def factsAt (node : Node) : List Fact :=
  match node.kind, place.holder with
  | .invocation, some _ =>
    [.invocation (place.file.callOf place.ownerName place.method place.around node)]
  | .constructorCall, some owner => (place.chainingOf owner node).toList.map .invocation
  | .methodReference, some _ =>
    if (sidesOf node).isEmpty then []
    else
      (place.referenceOf node).toList.map .invocation ++
        [.functionalUse (place.functionalUse .methodReference node)]
  | .lambda, some _ => [.functionalUse (place.functionalUse .lambda node)]
  | .blockComment, _ => place.commentFacts node
  | _, _ => []

/-- The creation of an object inside of a type. -/
def creationFacts (node : Node) : List Fact :=
  match place.holder, place.file.typeOf? node with
  | some _, some type =>
    if type = "" then []
    else [.invocation
      (place.file.creationOf type (.typed type) place.ownerName place.method place.around node)]
  | _, _ => []

/-- The sibling to which a comment in front of the next one would belong. -/
def latestNamed (before : Option Node) (node : Node) : Option Node :=
  if node.kind.isNamed then some node else before

end Place

def isArgumentPart (node : Node) : Bool := node.role == .arguments

mutual

/-- The facts of a node; `before` is the named node in front of it. -/
def survey (place : Place) (before : Option Node) :
    Node → Numbering → List Fact × Numbering
  | ⟨kind, role, span, text, children⟩, numbering =>
    let node : Node := ⟨kind, role, span, text, children⟩
    let inside := place.enter node
    match Place.typeKind? kind, place.holder with
    | some typeKind, _ =>
      if (node.child? .name).isNone then ([], numbering)
      else
        let (decl, numbering) := place.declareType typeKind node numbering
        let (facts, numbering) := surveyAll (inside.inType decl) isBodyPart none children numbering
        (.type decl :: facts, numbering)
    | none, none =>
      if kind = .enumConstant then surveyAll inside isArgumentPart none children numbering
      else if kind = .creation then
        surveyAll inside (fun c => !isClassBody c) none children numbering
      else
        let (facts, numbering) := surveyAll inside (fun _ => true) none children numbering
        (place.factsAt node ++ facts, numbering)
    | none, some owner =>
      if kind = .methodDeclaration ∨ kind = .constructorDeclaration then
        let decl := place.declareMethod owner before node
        let (facts, numbering) :=
          surveyAll (inside.inMethod decl.id) (fun _ => true) none children numbering
        (.method decl :: facts, numbering)
      else if kind = .enumConstant then
        let (facts, numbering) := surveyAll inside isArgumentPart none children numbering
        if children.any isBodyPart then
          let (decl, numbering) :=
            place.declareAnonymous owner (some owner.name) node numbering
          let (more, numbering) := surveyAll (inside.inType decl) isBodyPart none children numbering
          (facts ++ .type decl :: more, numbering)
        else (facts, numbering)
      else if kind = .creation then
        let (facts, numbering) :=
          surveyAll inside (fun c => !isClassBody c) none children numbering
        let facts := place.creationFacts node ++ facts
        if children.any isClassBody then
          let (decl, numbering) :=
            place.declareAnonymous owner (place.file.typeOf? node) node numbering
          let (more, numbering) := surveyAll (inside.inType decl) isClassBody none children numbering
          (facts ++ .type decl :: more, numbering)
        else (facts, numbering)
      else
        let (facts, numbering) := surveyAll inside (fun _ => true) none children numbering
        (place.factsAt node ++ facts, numbering)

/-- The facts of those nodes of a list that are to be read. -/
def surveyAll (place : Place) (isRead : Node → Bool) (before : Option Node) :
    List Node → Numbering → List Fact × Numbering
  | [], numbering => ([], numbering)
  | node :: rest, numbering =>
    let (facts, numbering) :=
      if isRead node then survey place before node numbering else ([], numbering)
    let (more, numbering) :=
      surveyAll place isRead (Place.latestNamed before node) rest numbering
    (facts ++ more, numbering)

end

/-! ## Files -/

/-- What the imports of a file name. -/
structure Header where
  package : String := ""
  imports : List String := []
  wildcardImports : List String := []
  staticImports : List String := []

namespace Header

def isName (node : Node) : Bool := node.kind == .identifier || node.kind == .scopedName

def addImport (file : SourceFile) (header : Header) (node : Node) : Header :=
  match node.children.find? isName with
  | none => header
  | some named =>
    let name := file.textOf named
    let isWildcard := node.children.any (·.kind == .asterisk)
    if node.children.any fun c => c.kind == .keyword && c.text == "static" then
      { header with staticImports :=
          header.staticImports ++ [if isWildcard then name ++ ".*" else name] }
    else if isWildcard then { header with wildcardImports := header.wildcardImports ++ [name] }
    else { header with imports := header.imports ++ [name] }

def add (file : SourceFile) (header : Header) (node : Node) : Header :=
  match node.kind with
  | .packageDeclaration =>
    match node.children.find? isName with
    | some name => { header with package := file.textOf name }
    | none => header
  | .importDeclaration => addImport file header node
  | _ => header

def ofNodes (file : SourceFile) (nodes : List Node) : Header := nodes.foldl (add file) {}

end Header

namespace FileFacts

/-- The path of a file from the root of its repository. -/
def relativeTo (root : Option String) (path : FilePath) : String :=
  match root with
  | none => path.toString
  | some root =>
    if root = "" then path.toString else (path.relativeTo (FilePath.ofString root)).toString

def ofTree (file : SourceFile) (relativePath : String) (tree : Node) : FileFacts :=
  let header := Header.ofNodes file tree.children
  let (facts, _) := survey { file, package := header.package } none tree ∅
  { file := file.path
    relativePath
    package := header.package
    imports := header.imports
    wildcardImports := header.wildcardImports
    staticImports := header.staticImports
    types := facts.filterMap fun | .type decl => some decl | _ => none
    methods := facts.filterMap fun | .method decl => some decl | _ => none
    invocations := facts.filterMap fun | .invocation call => some call | _ => none
    functionalUses := facts.filterMap fun | .functionalUse use => some use | _ => none
    docComments := facts.filterMap fun | .docComment location => some location | _ => none }

/-- The facts of a Java file, read off the tree that a parser makes of its text. -/
def analyze (parser : Parser) (path text : String) (root : Option String) : FileFacts :=
  let path := FilePath.ofString path
  ofTree ⟨path.toString, text⟩ (relativeTo root path) (parser text)

/-- The facts of a Java file as the reader of this library sees it. -/
def ofText : (path text : String) → (root : Option String) → FileFacts := analyze parse

end FileFacts

end EntryPoints
