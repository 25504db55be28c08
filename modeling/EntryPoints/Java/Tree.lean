import EntryPoints.Java.Token

/-!
# Syntax trees of Java files

A tree keeps every token and every comment of the text in its place.  Its nodes say
what construct they are, which role they play in the construct around them, and what
they cover.  Constructs that no analysis tells apart share a kind: all statements that
only hold other nodes are `statement`, for instance.

A node covers the text from its first to its last token.  A comment belongs to the
innermost construct that has tokens on both sides of it.
-/

namespace EntryPoints.Java

inductive Kind where
  -- tokens
  | identifier
  | keyword
  | symbol
  | this
  | super
  | integerLiteral
  | floatingLiteral
  | characterLiteral
  | stringLiteral
  | booleanLiteral
  | nullLiteral
  | lineComment
  | blockComment
  -- names and types
  | scopedName
  | asterisk
  | typeName
  | scopedType
  | genericType
  | arrayType
  | primitiveType
  | annotatedType
  | typeArguments
  | wildcard
  | dimensions
  | typeParameters
  | typeParameter
  | typeBound
  | typeList
  -- declarations
  | program
  | packageDeclaration
  | importDeclaration
  | moduleDeclaration
  | modifiers
  | annotationUse
  | annotationArguments
  | classDeclaration
  | interfaceDeclaration
  | enumDeclaration
  | recordDeclaration
  | annotationDeclaration
  | superclass
  | implementedTypes
  | extendedTypes
  | permittedTypes
  | classBody
  | interfaceBody
  | enumBody
  | annotationBody
  | enumMembers
  | enumConstant
  | fieldDeclaration
  | constantDeclaration
  | annotationElement
  | methodDeclaration
  | constructorDeclaration
  | compactConstructor
  | constructorBody
  | constructorCall
  | initializer
  | throwsClause
  | formalParameters
  | formalParameter
  | spreadParameter
  | receiverParameter
  | inferredParameters
  | variableDeclarator
  -- statements
  | block
  | statement
  | localDeclaration
  | forStatement
  | forEachStatement
  | returnStatement
  | tryWithResources
  | resources
  | resource
  | catchClause
  | catchParameter
  | catchType
  | switchBlock
  | switchGroup
  | switchRule
  | switchLabel
  | pattern
  -- expressions
  | assignment
  | binary
  | unary
  | update
  | ternary
  | instanceTest
  | lambda
  | cast
  | switchExpression
  | parenthesized
  | creation
  | arrayCreation
  | arrayInitializer
  | fieldAccess
  | arrayAccess
  | invocation
  | methodReference
  | classLiteral
  | argumentList
deriving DecidableEq, Repr, Inhabited

/-- The role of a node in the construct around it. -/
inductive Role where
  | plain
  | name
  | type
  | body
  | parameters
  | typeParameters
  | superclass
  | arguments
  | object
  | field
  | operator
  | operand
  | left
  | right
  | declarator
  | value
  | resources
deriving DecidableEq, Repr, Inhabited

structure Node where
  kind : Kind
  role : Role := .plain
  span : Span
  /-- The text of a token; empty for a construct. -/
  text : String := ""
  children : List Node := []
deriving Repr, Inhabited

namespace Node

def withRole (role : Role) (node : Node) : Node := { node with role }

/-- What a list of nodes covers: from the start of the first to the end of the last. -/
def cover : List Node → Span
  | [] => ⟨0, 0, 1⟩
  | first :: rest => { first.span with stop := ((first :: rest).getLast (by simp)).span.stop }

/-- A construct made of nodes that follow each other. -/
def group (kind : Kind) (children : List Node) : Node := { kind, span := cover children, children }

def child? (node : Node) (role : Role) : Option Node := node.children.find? (·.role == role)

def childrenOf (node : Node) (role : Role) : List Node := node.children.filter (·.role == role)

def ofKind? (node : Node) (kind : Kind) : Option Node := node.children.find? (·.kind == kind)

end Node

def Kind.isComment (kind : Kind) : Bool := kind == .lineComment || kind == .blockComment

/-- Whether a node stands for more than its spelling. -/
def Kind.isNamed (kind : Kind) : Bool := !(kind == .keyword || kind == .symbol)

namespace Node

/-- The named children that are not comments. -/
def parts (node : Node) : List Node :=
  node.children.filter fun c => c.kind.isNamed && !c.kind.isComment

end Node

end EntryPoints.Java
