import EntryPoints.Code.TypeText
import EntryPoints.Facts.Basic
import EntryPoints.Facts.Variables

/-!
# What expressions say about types

Without inference the type of an expression can be read off literals, creations, casts,
declared names and a few operators.  The receiver of an invocation is described by how
it is written: a type, a name that is declared elsewhere, the object itself or its
superclass, a new object, or the result of another invocation.

Every function here takes the constructs around the expression, the innermost first.
-/

namespace EntryPoints.SourceFile

open Java

variable (file : SourceFile)

def isComparison (operator : String) : Bool :=
  ["==", "!=", "<", ">", "<=", ">=", "&&", "||"].contains operator

def integerType (text : String) : String :=
  if Text.endsWith "l" text || Text.endsWith "L" text then "long" else "int"

def floatingType (text : String) : String :=
  if Text.endsWith "f" text || Text.endsWith "F" text then "float" else "double"

/-- The name of the field that an access through `this` reads. -/
def ownField? (access : Node) : Option String :=
  match access.child? .object, access.child? .field with
  | some object, some field => if object.kind = .this then some field.text else none
  | _, _ => none

mutual

/-- The type of an expression, where it can be read without inference. -/
def expressionType (around : List Node) : Node → Option String
  | ⟨kind, role, span, text, children⟩ =>
    let node : Node := ⟨kind, role, span, text, children⟩
    match kind with
    | .stringLiteral => some "String"
    | .characterLiteral => some "char"
    | .booleanLiteral => some "boolean"
    | .nullLiteral => some "null"
    | .integerLiteral => some (integerType text)
    | .floatingLiteral => some (floatingType text)
    | .identifier => (file.variableType text around).bind Declared.text?
    | .fieldAccess => (ownField? node).bind fun name => file.fieldType name around
    | .creation | .cast => file.typeOf? node
    | .parenthesized => firstPartType (node :: around) children
    | .instanceTest => some "boolean"
    | .unary =>
      if (node.child? .operator).any (·.text == "!") then some "boolean"
      else typeAt .operand (node :: around) children
    | .binary =>
      match node.child? .operator with
      | none => none
      | some operator =>
        if isComparison operator.text then some "boolean"
        else if operator.text = "+" ∧
            (typeAt .left (node :: around) children = some "String" ∨
              typeAt .right (node :: around) children = some "String") then some "String"
        else none
    | _ => none

/-- The type of the first expression of a list that plays a role. -/
def typeAt (wanted : Role) (around : List Node) : List Node → Option String
  | [] => none
  | node :: rest =>
    if node.role = wanted then expressionType around node else typeAt wanted around rest

def firstPartType (around : List Node) : List Node → Option String
  | [] => none
  | node :: rest =>
    if node.kind.isNamed && !node.kind.isComment then expressionType around node
    else firstPartType around rest

end

def argumentsOf (node : Node) : List Node := ((node.child? .arguments).map Node.parts).getD []

def argumentTypes (around : List Node) (node : Node) : List (Option String) :=
  let inside := (node.child? .arguments).toList ++ node :: around
  (argumentsOf node).map (file.expressionType inside)

/-- The invocation that a node writes down, given how its receiver is written. -/
def invocation (kind : CallKind) (name : String) (receiver : Option Receiver)
    (owner method : Option String) (around : List Node) (node : Node) : Invocation where
  kind
  name
  argumentCount := some (argumentsOf node).length
  receiver
  owner
  method
  location := file.locate node.span
  argumentTypes := some (file.argumentTypes around node)

def nameOf (node : Node) : String := ((node.child? .name).map (·.text)).getD ""

mutual

/-- Whether an expression is a dotted name that starts with no variable. -/
def isQualifiedName (around : List Node) : Node → Bool
  | ⟨kind, role, span, text, children⟩ =>
    let node : Node := ⟨kind, role, span, text, children⟩
    match kind with
    | .identifier => (file.variableType text around).isNone
    | .fieldAccess =>
      (node.child? .field).any (·.kind == .identifier) && startsQualified (node :: around) children
    | _ => false

def startsQualified (around : List Node) : List Node → Bool
  | [] => false
  | node :: rest =>
    if node.role = .object then isQualifiedName around node else startsQualified around rest

end

def identifierReceiver (name : String) : Option Declared → Receiver
  | some .untyped => .unknown
  | some (.typed text) => .typed text
  | none => .named name

def fieldReceiver (around : List Node) (node : Node) : Receiver :=
  match ownField? node with
  | some name =>
    match file.fieldType name around with
    | some text => .typed text
    | none => .named name
  | none => if file.isQualifiedName around node then .typed (file.textOf node) else .unknown

mutual

/-- How an expression describes a receiver. -/
def receiverOf (around : List Node) : Node → Receiver
  | ⟨kind, role, span, text, children⟩ =>
    let node : Node := ⟨kind, role, span, text, children⟩
    match kind with
    | .identifier => identifierReceiver text (file.variableType text around)
    | .this => .this
    | .super => .super
    | .fieldAccess => file.fieldReceiver around node
    | .invocation =>
      .result (file.invocation .call (nameOf node) (objectReceiver (node :: around) children)
        none none around node)
    | .creation => .created ((file.typeOf? node).getD "")
    | .parenthesized => (firstPartReceiver (node :: around) children).getD .unknown
    | .cast => .typed ((file.typeOf? node).getD "")
    | .typeName | .scopedType | .genericType | .scopedName => .typed (file.typeText node)
    | _ => .unknown

/-- The receiver that the object of a call describes. -/
def objectReceiver (around : List Node) : List Node → Option Receiver
  | [] => none
  | node :: rest =>
    if node.role = .object then some (receiverOf around node) else objectReceiver around rest

def firstPartReceiver (around : List Node) : List Node → Option Receiver
  | [] => none
  | node :: rest =>
    if node.kind.isNamed && !node.kind.isComment then some (receiverOf around node)
    else firstPartReceiver around rest

end

/-- The call that a node writes down. -/
def callOf (owner method : Option String) (around : List Node) (node : Node) : Invocation :=
  file.invocation .call (nameOf node) (file.objectReceiver (node :: around) node.children)
    owner method around node

def creationOf (type : String) (receiver : Receiver) (owner method : Option String)
    (around : List Node) (node : Node) : Invocation :=
  file.invocation .creation (TypeText.simpleName type) (some receiver) owner method around node

/-! ## Targets of lambdas -/

def outOfParentheses (node : Node) : List Node → Node × List Node
  | parent :: around =>
    if parent.kind = .parenthesized then outOfParentheses parent around
    else (node, parent :: around)
  | [] => (node, [])

/-- The return type of the method around, unless a lambda comes first. -/
def returnTarget (around : List Node) : Option TargetHint :=
  (around.find? fun node => node.kind == .lambda || node.kind == .methodDeclaration).bind
    fun node =>
      if node.kind = .lambda then none else some (.typed ((file.typeOf? node).getD ""))

def argumentTarget (owner method : Option String) (argument list : Node) :
    List Node → Option TargetHint
  | call :: around =>
    let position := (list.parts.findIdx? (·.span == argument.span)).getD 0
    match call.kind with
    | .invocation => some (.argument (file.callOf owner method around call) position)
    | .creation =>
      let type := (file.typeOf? call).getD ""
      some (.argument (file.creationOf type (.typed type) owner method around call) position)
    | _ => none
  | [] => none

/-- Where the interface of a lambda or method reference can be read. -/
def targetHint (owner method : Option String) (around : List Node) (node : Node) :
    Option TargetHint :=
  match outOfParentheses node around with
  | (_, []) => none
  | (current, parent :: around) =>
    match parent.kind with
    | .variableDeclarator =>
      match around.head?.bind file.typeOf? with
      | some text => if text = "" ∨ text = "var" then none else some (.typed text)
      | none => none
    | .cast => some (.typed ((file.typeOf? parent).getD ""))
    | .returnStatement => file.returnTarget around
    | .assignment =>
      match (parent.child? .left).map (file.receiverOf (parent :: around)) with
      | some (.typed text) => some (.typed text)
      | _ => none
    | .argumentList => file.argumentTarget owner method current parent around
    | _ => none

end EntryPoints.SourceFile
