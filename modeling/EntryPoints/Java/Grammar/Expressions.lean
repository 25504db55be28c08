import EntryPoints.Java.Grammar.Types

/-!
# Expressions

Binary operators are read as a flat list of operands and then joined level by level,
the tightest first and each from left to right.  A primary expression is read from its
first token and then extended as long as something can be attached to it.

Four choices need more than the next token.  A lambda shows by the arrow after its
parameters; a cast by a type in parentheses and the start of an operand after it; and a
type that qualifies a method reference or a class literal by what follows it.
-/

namespace EntryPoints.Java.Grammar

open Reader

variable (g : Grammar)

def literalKind (t : Token) : Option Kind :=
  match t.kind with
  | .integer => some .integerLiteral
  | .floating => some .floatingLiteral
  | .character => some .characterLiteral
  | .string => some .stringLiteral
  | .word =>
    if t.text = "true" ∨ t.text = "false" then some .booleanLiteral
    else if t.text = "null" then some .nullLiteral
    else none
  | .symbol => none

def literal : Reader Node
  | t :: rest => (literalKind t).map fun kind => (leaf kind t, rest)
  | [] => none

def this : Reader Node := leaf .this <$> token (isWord "this")

def super : Reader Node := leaf .super <$> token (isWord "super")

def arguments : Reader Node := do
  let opened ← symbol "("
  let values ← listOf (g.read .expression) g.rounds
  let closed ← symbol ")"
  return .group .argumentList (opened :: values ++ [closed])

def initializerItem : Reader Node := do
  if ← ahead ["\x7b"] then g.read .arrayInitializer
  else if ← ahead ["@"] then g.read .annotationUse
  else g.read .expression

def arrayInitializer : Reader Node := do
  let opened ← symbol "\x7b"
  let items ← listOf (initializerItem g) g.rounds
  let comma ← atMostOne (symbol ",")
  let closed ← symbol "\x7d"
  return .group .arrayInitializer (opened :: items ++ comma ++ [closed])

/-! ## Lambdas -/

def formalParameter : Reader Node := do
  let marks ← modifiers g
  let type ← plainType g
  if ← ahead ["..."] then
    let dots ← symbol "..."
    let more ← annotations g
    let name ← name
    let dims ← atMostOne (dimensions g)
    let declarator := Node.group .variableDeclarator (name.withRole .name :: dims)
    return .group .spreadParameter (marks ++ [type, dots] ++ more ++ [declarator])
  else
    let name ← name
    let dims ← atMostOne (dimensions g)
    return .group .formalParameter
      (marks ++ type.withRole .type :: name.withRole .name :: dims)

def receiverParameter : Reader Node := do
  let marks ← annotations g
  let type ← plainType g
  let outer ← many (do return [← name, ← symbol "."]) g.rounds
  let this ← this
  return .group .receiverParameter (marks ++ type :: outer.flatten ++ [this])

def formalParameters : Reader Node := do
  let opened ← symbol "("
  let parameters ← listOf (receiverParameter g <|> formalParameter g) g.rounds
  let closed ← symbol ")"
  return .group .formalParameters (opened :: parameters ++ [closed])

def inferredParameters : Reader Node := do
  let opened ← symbol "("
  let names ← separated "," name g.rounds
  let closed ← symbol ")"
  return .group .inferredParameters (opened :: names ++ [closed])

/-- Whether the tokens start with the parameters of a lambda and its arrow. -/
def startsLambda (tokens : List Token) : Bool :=
  match tokens with
  | t :: rest =>
    if isSymbol "(" t then nextText (afterGroup 1 rest) == "->"
    else t.isName && nextText rest == "->"
  | [] => false

def lambda : Reader Node := do
  let parameters ← (name <|> inferredParameters g <|> formalParameters g)
  let arrow ← symbol "->"
  let body ← if ← ahead ["\x7b"] then g.read .block else g.read .expression
  return .group .lambda [parameters.withRole .parameters, arrow, body.withRole .body]

/-! ## Primary expressions -/

def parenthesized : Reader Node := do
  return .group .parenthesized [← symbol "(", ← g.read .expression, ← symbol ")"]

def sizedDimension : Reader Node := do
  let marks ← annotations g
  let opened ← symbol "["
  let size ← g.read .expression
  let closed ← symbol "]"
  return .group .dimensions (marks ++ [opened, size, closed])

/-- The rest of a creation of arrays, after the element type. -/
def arrayCreation (start : List Node) : Reader Node := do
  let sized ← many (sizedDimension g) g.rounds
  let unsized ← atMostOne (dimensions g)
  let initial ← atMostOne (Node.withRole .value <$> g.read .arrayInitializer)
  return .group .arrayCreation (start ++ sized ++ unsized ++ initial)

/-- A creation of an object or an array; `outer` is what stands before `new`. -/
def creation (outer : List Node) : Reader Node := do
  let word ← keyword "new"
  let constructorTypes ← atMostOne (typeArguments g)
  let marks ← annotations g
  let type ← simpleType g
  let start := outer ++ word :: constructorTypes ++ marks ++ [type.withRole .type]
  if ← ahead ["("] then
    let arguments ← arguments g
    let body ← atMostOne (g.read .classBody)
    return .group .creation (start ++ arguments.withRole .arguments :: body)
  else arrayCreation g start

def switchExpression : Reader Node := do
  let word ← keyword "switch"
  let subject ← parenthesized g
  let body ← g.read .switchBody
  return .group .switchExpression [word, subject, body.withRole .body]

/-- What follows the two colons of a method reference. -/
def referenceTail (qualifier : Node) : Reader Node := do
  let colons ← symbol "::"
  let types ← atMostOne (typeArguments g)
  let target ← (keyword "new" <|> name)
  return .group .methodReference (qualifier :: colons :: types ++ [target])

def classLiteralTail (type : Node) : Reader Node := do
  return .group .classLiteral [type, ← symbol ".", ← keyword "class"]

/-- A type that qualifies a method reference or a class literal. -/
def typePrimary : Reader Node := do
  let type ← g.read .type
  referenceTail g type <|> classLiteralTail type

/-- Whether what follows a dotted name can only belong to a type. -/
def typeFollows : List Token → Bool
  | t :: rest =>
    if t.isName then
      match rest with
      | dot :: more =>
        if isSymbol "." dot then typeFollows more
        else isSymbol "<" dot || (isSymbol "[" dot && nextText more == "]")
      | [] => false
    else false
  | [] => false

def startsType (tokens : List Token) : Bool :=
  (tokens.head?.map isPrimitive).getD false || typeFollows tokens

/-- An unqualified name, or a call of an unqualified method. -/
def nameOrCall : Reader Node := do
  let name ← name
  if ← ahead ["("] then
    let arguments ← arguments g
    return .group .invocation [name.withRole .name, arguments.withRole .arguments]
  else return name

def primaryStart : Reader Node := do
  if ← ahead ["("] then parenthesized g
  else if ← ahead ["new"] then creation g []
  else if ← ahead ["switch"] then switchExpression g
  else if ← ahead ["this"] then this
  else if ← ahead ["super"] then super
  else if ← ahead ["@"] then typePrimary g
  else if ← aheadIs startsType then typePrimary g <|> literal <|> nameOrCall g
  else literal <|> nameOrCall g

/-- A member of an object: a call or a field. -/
def member (object : List Node) : Reader Node := do
  let types ← atMostOne (typeArguments g)
  let name ← name
  if ← ahead ["("] then
    let arguments ← arguments g
    return .group .invocation
      (object ++ types ++ [name.withRole .name, arguments.withRole .arguments])
  else return .group .fieldAccess (object ++ [name.withRole .field])

/-- What may be attached to an expression after a point. -/
def afterPoint (object point : Node) : Reader Node := do
  let front := [object.withRole .object, point]
  if ← ahead ["new"] then creation g [object, point]
  else if ← ahead ["class"] then return .group .classLiteral [object, point, ← keyword "class"]
  else if ← ahead ["this"] then return .group .fieldAccess (front ++ [(← this).withRole .field])
  else if ← ahead ["super", "("] then failure
  else if ← ahead ["super", "::"] then return .group .scopedType [object, point, ← super]
  else if ← ahead ["super"] then
    let super ← super
    let second ← symbol "."
    member g (front ++ [super, second])
  else member g front

def attach (node : Node) : Reader Node := do
  if ← ahead ["."] then afterPoint g node (← symbol ".")
  else if ← ahead ["["] then
    return .group .arrayAccess [node, ← symbol "[", ← g.read .expression, ← symbol "]"]
  else referenceTail g node

def attachAll : (rounds : Nat) → Node → Reader Node
  | 0, node => return node
  | rounds + 1, node => do
    match ← maybe (attach g node) with
    | none => return node
    | some longer => attachAll rounds longer

def primary : Reader Node := do attachAll g g.rounds (← primaryStart g)

/-! ## Operators -/

/-- Whether a token can start the operand of a cast to a type that is not primitive. -/
def startsOperand (tokens : List Token) : Bool :=
  match tokens with
  | t :: _ =>
    (literalKind t).isSome || t.isName || isPrimitive t || isSymbol "(" t || isSymbol "!" t ||
      isSymbol "~" t || isSymbol "@" t || isWord "this" t || isWord "super" t || isWord "new" t ||
      isWord "switch" t
  | [] => false

def castOperand : Reader Node := do
  if ← aheadIs startsLambda then lambda g else g.read .unary

def cast : Reader Node := do
  let opened ← symbol "("
  let types ← separated "&" (Node.withRole .type <$> g.read .type) g.rounds
  let closed ← symbol ")"
  let primitive : Bool := match types with
    | [type] => type.kind == .primitiveType
    | _ => false
  unless primitive do ensure startsOperand
  let value ← castOperand g
  return .group .cast (opened :: types ++ [closed, value.withRole .value])

def signs : List String := ["+", "-", "!", "~"]

def steps : List String := ["++", "--"]

def oneOf (texts : List String) : Reader Node :=
  leaf .symbol <$> token fun t => t.kind == .symbol && texts.contains t.text

def afterSteps (node : Node) : Reader Node := do
  let found ← many (oneOf steps) g.rounds
  return found.foldl (fun node step => .group .update [node, step]) node

def unary : Reader Node := do
  if ← aheadIs (fun tokens => signs.contains (nextText tokens)) then
    let sign ← oneOf signs
    let operand ← g.read .unary
    return .group .unary [sign.withRole .operator, operand.withRole .operand]
  else if ← aheadIs (fun tokens => steps.contains (nextText tokens)) then
    return .group .update [← oneOf steps, ← g.read .unary]
  else
    cast g <|> (do afterSteps g (← primary g))

/-- The binary operators with their levels; a higher level binds tighter. -/
def levels : List (String × Nat) :=
  [("||", 1), ("&&", 2), ("|", 3), ("^", 4), ("&", 5), ("==", 6), ("!=", 6), ("<", 7), (">", 7),
    ("<=", 7), (">=", 7), ("<<", 8), (">>", 8), (">>>", 8), ("+", 9), ("-", 9), ("*", 10),
    ("/", 10), ("%", 10)]

def levelOf (operator : String) : Option Nat := levels.lookup operator

def testLevel : Nat := 7

/-- An operator with what stands on its right. -/
structure Operation where
  level : Nat
  isTest : Bool
  operator : Node
  right : List Node

/-- Joins tokens that touch each other into one symbol. -/
def joined (first : Token) : List Token → Token
  | [] => first
  | next :: rest =>
    let span := { first.span with stop := next.span.stop }
    joined { first with text := first.text ++ next.text, span } rest

def touching : List Token → Bool
  | a :: b :: rest => a.span.stop == b.span.start && touching (b :: rest)
  | _ => true

/-- Reads the symbols of an operator, which have to touch each other. -/
def symbolsOf (texts : List String) : Reader Node := fun tokens =>
  let found := tokens.take texts.length
  if found.map Token.text == texts && found.all (·.kind == .symbol) && touching found then
    match found with
    | first :: rest => some (leaf .symbol (joined first rest), tokens.drop texts.length)
    | [] => none
  else none

/-- Operators made of symbols that were read one by one, longer ones first. -/
def splitOperators : List (List String) :=
  [[">", ">", ">", "="], [">", ">", "="], [">", ">", ">"], [">", ">"], [">", "="], [">"]]

def firstOf : List (Reader Node) → Reader Node
  | [] => failure
  | reader :: rest => reader <|> firstOf rest

def operatorSymbol : Reader Node := do
  if ← ahead [">"] then firstOf (splitOperators.map symbolsOf)
  else leaf .symbol <$> token fun t => t.kind == .symbol

def binaryOperation : Reader Operation := do
  let operator ← operatorSymbol
  match levelOf operator.text with
  | none => failure
  | some level => return ⟨level, false, operator.withRole .operator, [← g.read .unary]⟩

/-- The components of a record pattern are patterns themselves, or left open. -/
def patternBody : (rounds : Nat) → Reader Node
  | 0 => failure
  | rounds + 1 => do
    let marks ← modifiers g
    let type ← plainType g
    if ← ahead ["("] then
      let opened ← symbol "("
      let components ← listOf (keyword "_" <|> patternBody rounds) g.rounds
      let closed ← symbol ")"
      return .group .pattern (marks ++ type :: opened :: components ++ [closed])
    else return .group .pattern (marks ++ [type, ← name])

def pattern : Reader Node := patternBody g g.rounds

def testTarget : Reader (List Node) := do
  let final ← atMostOne (keyword "final")
  let recordPattern := do
    let found ← pattern g
    ensure fun _ => found.children.any fun c => c.kind == .symbol && c.text == "("
    return [found]
  let typed := do
    let type ← g.read .type
    let name ← atMostOne name
    return final ++ type.withRole .right :: name
  recordPattern <|> typed

def testOperation : Reader Operation := do
  let operator ← keyword "instanceof"
  return ⟨testLevel, true, operator, ← testTarget g⟩

def combine (left : Node) (operation : Operation) : Node :=
  let kind := if operation.isTest then .instanceTest else .binary
  let right := if operation.isTest then operation.right
    else operation.right.map (Node.withRole .right)
  .group kind (left.withRole .left :: operation.operator :: right)

/-- Joins the operations of one level, from left to right. -/
def joinLevel (level : Nat) (left : Node) : List Operation → Node × List Operation
  | [] => (left, [])
  | operation :: rest =>
    if operation.level = level then joinLevel level (combine left operation) rest
    else
      match operation.right with
      | [right] =>
        let (right, rest) := joinLevel level right rest
        (left, { operation with right := [right] } :: rest)
      | several =>
        let (last, rest) := joinLevel level (several.getLastD left) rest
        (left, { operation with right := several.dropLast ++ [last] } :: rest)

def joinAll (left : Node) (operations : List Operation) : Node :=
  ([10, 9, 8, 7, 6, 5, 4, 3, 2, 1].foldl
    (fun (left, operations) level => joinLevel level left operations) (left, operations)).1

def binary : Reader Node := do
  let first ← g.read .unary
  let operations ← many (testOperation g <|> binaryOperation g) g.rounds
  return joinAll first operations

/-- A choice between two expressions, or what can stand before its question mark. -/
def ternary : Reader Node := do
  let condition ← binary g
  if ← ahead ["?"] then
    let question ← symbol "?"
    let yes ← g.read .expression
    let colon ← symbol ":"
    let no ← g.read .expression
    return .group .ternary [condition, question, yes, colon, no]
  else return condition

def assignmentSymbols : List String :=
  ["=", "+=", "-=", "*=", "/=", "&=", "|=", "^=", "%=", "<<="]

def assignmentOperator : Reader Node :=
  oneOf assignmentSymbols <|> symbolsOf [">", ">", ">", "="] <|> symbolsOf [">", ">", "="]

def isAssignable (node : Node) : Bool :=
  [Kind.identifier, .fieldAccess, .arrayAccess].contains node.kind

def expression : Reader Node := do
  if ← aheadIs startsLambda then lambda g
  else
    let left ← ternary g
    if isAssignable left then
      match ← maybe assignmentOperator with
      | none => return left
      | some operator =>
        let right ← g.read .expression
        return .group .assignment
          [left.withRole .left, operator.withRole .operator, right.withRole .right]
    else return left

end EntryPoints.Java.Grammar
