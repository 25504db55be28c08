import EntryPoints.Facts.Source

/-!
# What a name is declared as

The declarations that a name may refer to stand in the constructs around it: statements
of the same block, parameters of the method or lambda, the heads of loops, catches and
tries, and the fields of the type.  The innermost construct that declares the name
decides.  A declaration may leave the type open, as the parameters of most lambdas do.
-/

namespace EntryPoints

open Java

/-- What a declaration says about the type of a name. -/
inductive Declared where
  | typed (text : String)
  | untyped
deriving DecidableEq, Repr, Inhabited

def Declared.text? : Declared → Option String
  | typed text => some text
  | untyped => none

/-- Whether a node declares a name itself. -/
def Java.Node.isCalled (name : String) (node : Node) : Bool :=
  (node.child? .name).any (·.text == name)

namespace SourceFile

variable (file : SourceFile) (name : String)

def typedOr (text : Option String) : Declared := (text.map .typed).getD .untyped

/-- What one variable of a declaration is declared as; a type that is inferred can
only be read off the creation of an object. -/
def variableOf (type : Option String) (declarator : Node) : Declared :=
  if type = some "var" then
    match declarator.child? .value with
    | some value => if value.kind = .creation then typedOr (file.typeOf? value) else .untyped
    | none => .untyped
  else typedOr type

def inStatements (statements : List Node) : Option Declared :=
  (statements.filter (·.kind == .localDeclaration)).findSome? fun declaration =>
    ((declaration.childrenOf .declarator).find? (·.isCalled name)).map
      (file.variableOf (file.typeOf? declaration))

/-- What a parameter is declared as, if it has the name. -/
def inParameter (parameter : Node) : Option Declared :=
  match parameter.kind with
  | .formalParameter =>
    if parameter.isCalled name then some (typedOr (file.typeOf? parameter)) else none
  | .spreadParameter =>
    if (parameter.ofKind? .variableDeclarator).any (·.isCalled name) then some .untyped else none
  | _ => none

def inParameters (parameters : Option Node) : Option Declared :=
  parameters.bind fun list => list.children.findSome? (file.inParameter name)

def inLambda (lambda : Node) : Option Declared :=
  match lambda.child? .parameters with
  | none => none
  | some parameters =>
    match parameters.kind with
    | .identifier => if parameters.text = name then some .untyped else none
    | .inferredParameters =>
      if parameters.children.any (·.text == name) then some .untyped else none
    | _ => file.inParameters name (some parameters)

/-- What a catch declares: of several types the first. -/
def inCatch (clause : Node) : Option Declared :=
  match clause.ofKind? .catchParameter with
  | none => none
  | some parameter =>
    if parameter.isCalled name then
      some (typedOr (((parameter.ofKind? .catchType).bind (·.parts.head?)).map file.typeText))
    else none

/-- What the head of a try declares: of several resources of a name the last. -/
def inResources (resources : Option Node) : Option Declared :=
  resources.bind fun list =>
    (list.children.reverse.find? (·.isCalled name)).map fun r => typedOr (file.typeOf? r)

/-- The members of a body, those behind the constants of an enum included. -/
def membersOf (body : Node) : List Node :=
  body.children.flatMap fun c => if c.kind = .enumMembers then c.children else [c]

/-- The fields that a declaration adds to a body. -/
def fieldsOf (declaration : Node) : List (String × String) :=
  if declaration.kind = .fieldDeclaration ∨ declaration.kind = .constantDeclaration then
    (declaration.childrenOf .declarator).filterMap fun declarator =>
      (declarator.child? .name).map fun name =>
        (name.text, (file.typeOf? declaration).getD "")
  else []

def fieldsIn (body : Node) : List (String × String) := (membersOf body).flatMap file.fieldsOf

def isTypeBody (node : Node) : Bool :=
  [Kind.classBody, .interfaceBody, .enumBody, .annotationBody].contains node.kind

def inBody (body : Node) : Option String :=
  ((file.fieldsIn body).reverse.find? (·.1 == name)).map (·.2)

/-- What a construct declares a name as that stands inside of it. -/
def declaredBy (node : Node) : Option Declared :=
  match node.kind with
  | .block | .constructorBody | .switchGroup | .switchRule | .forStatement =>
    file.inStatements name node.children
  | .lambda => file.inLambda name node
  | .methodDeclaration | .constructorDeclaration =>
    file.inParameters name (node.child? .parameters)
  | .forEachStatement => if node.isCalled name then some (typedOr (file.typeOf? node)) else none
  | .catchClause => file.inCatch name node
  | .tryWithResources => file.inResources name (node.child? .resources)
  | .classBody | .interfaceBody | .enumBody | .annotationBody =>
    (file.inBody name node).map .typed
  | _ => none

/-- What a name is declared as in the constructs around it, the innermost first. -/
def variableType (around : List Node) : Option Declared := around.findSome? (file.declaredBy name)

/-- The type of a field of the innermost type around. -/
def fieldType (around : List Node) : Option String :=
  (around.find? isTypeBody).bind (file.inBody name)

end SourceFile

end EntryPoints
