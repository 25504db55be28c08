import EntryPoints.Java.Grammar.Expressions

/-!
# Statements

Most statements are recognised by their first word.  What opens with a type and a name
declares local variables, what opens with a name and a colon is labelled, and the rest
are expressions.
-/

namespace EntryPoints.Java.Grammar

open Reader

variable (g : Grammar)

def declarator : Reader Node := do
  let name ← name
  let dims ← atMostOne (dimensions g)
  let start := name.withRole .name :: dims
  if ← ahead ["="] then
    let equals ← symbol "="
    let value ←
      if ← ahead ["\x7b"] then g.read .arrayInitializer else g.read .expression
    return .group .variableDeclarator (start ++ [equals, value.withRole .value])
  else return .group .variableDeclarator start

def declarators : Reader (List Node) :=
  separated "," (Node.withRole .declarator <$> declarator g) g.rounds

/-- Whether what follows a type and a name goes on with a declaration. -/
def continuesDeclaration (tokens : List Token) : Bool :=
  ["=", ";", ",", "[", "@"].contains (nextText tokens)

def declaresVariables : Reader Bool := test do
  let _ ← modifiers g
  let _ ← plainType g
  let _ ← name
  ensure continuesDeclaration

def localDeclaration : Reader Node := do
  let marks ← modifiers g
  let type ← plainType g
  let declared ← declarators g
  let semicolon ← symbol ";"
  return .group .localDeclaration (marks ++ type.withRole .type :: declared ++ [semicolon])

def block : Reader Node := do
  let opened ← symbol "\x7b"
  let statements ← many (g.read .statement) g.rounds
  let closed ← symbol "\x7d"
  return .group .block (opened :: statements ++ [closed])

def expressionStatement : Reader Node := do
  return .group .statement [← g.read .expression, ← symbol ";"]

/-! ## Switches -/

def labelItem : Reader Node := do
  let patternAhead ← test do
    let _ ← pattern g
    ensure fun tokens => ["->", ":", ",", "when", "&&"].contains (nextText tokens)
  if patternAhead then pattern g
  else if ← ahead ["default"] then keyword "default"
  else ternary g

def guardClause : Reader (List Node) := do
  match ← maybe (do return [← keyword "when", ← ternary g]) with
  | some found => return found
  | none => return []

def switchLabel : Reader Node := do
  if ← ahead ["default"] then return .group .switchLabel [← keyword "default"]
  else
    let word ← keyword "case"
    let labels ← separated "," (labelItem g) g.rounds
    let condition ← guardClause g
    return .group .switchLabel (word :: labels ++ condition)

def throwStatement : Reader Node := do
  return .group .statement [← keyword "throw", ← g.read .expression, ← symbol ";"]

def switchRule : Reader Node := do
  let label ← switchLabel g
  let arrow ← symbol "->"
  let body ← (g.read .block <|> throwStatement g <|> expressionStatement g)
  return .group .switchRule [label, arrow, body]

def switchGroup : Reader Node := do
  let labels ← many (do return [← switchLabel g, ← symbol ":"]) g.rounds
  match labels.flatten with
  | [] => failure
  | heads =>
    let statements ← many (g.read .statement) g.rounds
    return .group .switchGroup (heads ++ statements)

def switchBody : Reader Node := do
  let opened ← symbol "\x7b"
  let entries ← many (switchRule g <|> switchGroup g) g.rounds
  let closed ← symbol "\x7d"
  return .group .switchBlock (opened :: entries ++ [closed])

/-! ## Loops -/

def forEachHead : Reader (List Node) := do
  let marks ← modifiers g
  let type ← plainType g
  let name ← name
  let dims ← atMostOne (dimensions g)
  let colon ← symbol ":"
  let value ← g.read .expression
  return marks ++ type.withRole .type :: name.withRole .name :: dims ++
    [colon, value.withRole .value]

def forStart : Reader (List Node) := do
  if ← declaresVariables g then return [← localDeclaration g]
  else
    let start ← listOf (g.read .expression) g.rounds
    return start ++ [← symbol ";"]

def forHead : Reader (List Node) := do
  let start ← forStart g
  let condition ← atMostOne (g.read .expression)
  let semicolon ← symbol ";"
  let updates ← listOf (g.read .expression) g.rounds
  return start ++ condition ++ semicolon :: updates

def forLoop : Reader Node := do
  let word ← keyword "for"
  let opened ← symbol "("
  match ← maybe (do return (← forEachHead g, ← symbol ")")) with
  | some (head, closed) =>
    let body ← g.read .statement
    return .group .forEachStatement (word :: opened :: head ++ [closed, body.withRole .body])
  | none =>
    let head ← forHead g
    let closed ← symbol ")"
    let body ← g.read .statement
    return .group .forStatement (word :: opened :: head ++ [closed, body.withRole .body])

def whileLoop : Reader Node := do
  return .group .statement [← keyword "while", ← parenthesized g, ← g.read .statement]

def doLoop : Reader Node := do
  return .group .statement [← keyword "do", ← g.read .statement, ← keyword "while",
    ← parenthesized g, ← symbol ";"]

/-! ## Handling exceptions -/

def declaredResource : Reader Node := do
  let marks ← modifiers g
  let type ← plainType g
  let name ← name
  let equals ← symbol "="
  let value ← g.read .expression
  return .group .resource (marks ++ [type.withRole .type, name.withRole .name, equals,
    value.withRole .value])

def resource : Reader Node :=
  declaredResource g <|> (do return .group .resource [← primary g])

def resources : Reader Node := do
  let opened ← symbol "("
  let found ← separated ";" (resource g) g.rounds
  let semicolon ← atMostOne (symbol ";")
  let closed ← symbol ")"
  return .group .resources (opened :: found ++ semicolon ++ [closed])

def catchParameter : Reader Node := do
  let marks ← modifiers g
  let types ← separated "|" (plainType g) g.rounds
  let name ← name
  let dims ← atMostOne (dimensions g)
  return .group .catchParameter
    (marks ++ Node.group .catchType types :: name.withRole .name :: dims)

def catchClause : Reader Node := do
  let word ← keyword "catch"
  let opened ← symbol "("
  let parameter ← catchParameter g
  let closed ← symbol ")"
  let body ← g.read .block
  return .group .catchClause [word, opened, parameter, closed, body.withRole .body]

def finallyClause : Reader Node := do
  return .group .statement [← keyword "finally", ← g.read .block]

def tryStatement : Reader Node := do
  let word ← keyword "try"
  let head ← if ← ahead ["("] then some <$> resources g else pure none
  let body ← g.read .block
  let handlers ← many (catchClause g) g.rounds
  let last ← atMostOne (finallyClause g)
  let tail := body.withRole .body :: handlers ++ last
  match head with
  | some head => return .group .tryWithResources (word :: head.withRole .resources :: tail)
  | none => return .group .statement (word :: tail)

/-! ## Other statements -/

def ifStatement : Reader Node := do
  let word ← keyword "if"
  let condition ← parenthesized g
  let yes ← g.read .statement
  let no ← maybe (do return [← keyword "else", ← g.read .statement])
  return .group .statement (word :: condition :: yes :: no.getD [])

def returnStatement : Reader Node := do
  let word ← keyword "return"
  let value ← atMostOne (g.read .expression)
  let semicolon ← symbol ";"
  return .group .returnStatement (word :: value ++ [semicolon])

def jump (word : String) : Reader Node := do
  let word ← keyword word
  let label ← atMostOne name
  let semicolon ← symbol ";"
  return .group .statement (word :: label ++ [semicolon])

def yieldStatement : Reader Node := do
  let word ← keyword "yield"
  ensure fun tokens =>
    !(["=", ".", "[", "++", "--", "::", ";", ")", ",", "+=", "-=", "->"].contains (nextText tokens))
  return .group .statement [word, ← g.read .expression, ← symbol ";"]

def assertStatement : Reader Node := do
  let word ← keyword "assert"
  let condition ← g.read .expression
  let detail ← maybe (do return [← symbol ":", ← g.read .expression])
  let semicolon ← symbol ";"
  return .group .statement (word :: condition :: detail.getD [] ++ [semicolon])

def synchronizedStatement : Reader Node := do
  let word ← keyword "synchronized"
  let lock ← parenthesized g
  let body ← g.read .block
  return .group .statement [word, lock, body.withRole .body]

def labelled : Reader Node := do
  return .group .statement [← name, ← symbol ":", ← g.read .statement]

/-- A switch that stands as a statement of its own. -/
def switchStatement : Reader Node := do
  let found ← switchExpression g
  ensure fun tokens => nextText tokens ≠ "."
  return found

/-- A statement that is told by its first word. -/
def keywordStatement (word : String) : Option (Reader Node) :=
  match word with
  | "if" => some (ifStatement g)
  | "for" => some (forLoop g)
  | "while" => some (whileLoop g)
  | "do" => some (doLoop g)
  | "try" => some (tryStatement g)
  | "return" => some (returnStatement g)
  | "throw" => some (throwStatement g)
  | "break" => some (jump "break")
  | "continue" => some (jump "continue")
  | "assert" => some (assertStatement g)
  | "synchronized" => some (synchronizedStatement g)
  | "switch" => some (switchStatement g <|> expressionStatement g)
  | "yield" => some (yieldStatement g <|> expressionStatement g)
  | "\x7b" => some (g.read .block)
  | ";" => some (symbol ";")
  | _ => none

def statement : Reader Node := fun tokens =>
  match keywordStatement g (nextText tokens) with
  | some reader => reader tokens
  | none =>
    (do
      if ← declaresVariables g then localDeclaration g
      else g.read .typeDeclaration <|> labelled g <|> expressionStatement g) tokens

end EntryPoints.Java.Grammar
