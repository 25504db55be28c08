import EntryPoints.Java.Grammar.Statements

/-!
# Declarations

The members of a body are told apart by what follows their modifiers: a word that
introduces a type, a name before a parenthesis or a brace for constructors, and
otherwise a type and a name, with a parenthesis after it for methods.
-/

namespace EntryPoints.Java.Grammar

open Reader

variable (g : Grammar)

/-! ## Types -/

def superclass : Reader Node := do
  return .group .superclass [← keyword "extends", ← g.read .type]

def implementedTypes : Reader Node := do
  return .group .implementedTypes [← keyword "implements", ← typeList g]

def extendedTypes : Reader Node := do
  return .group .extendedTypes [← keyword "extends", ← typeList g]

def permittedTypes : Reader Node := do
  return .group .permittedTypes [← keyword "permits", ← typeList g]

def parametersOfType : Reader (List Node) :=
  atMostOne (Node.withRole .typeParameters <$> typeParameters g)

def body (kind : Kind) (member : Reader Node) : Reader Node := do
  let opened ← symbol "\x7b"
  let members ← many member g.rounds
  let closed ← symbol "\x7d"
  return (Node.group kind (opened :: members ++ [closed])).withRole .body

/-! ## Methods and fields -/

def throwsClause : Reader Node := do
  return .group .throwsClause ((← keyword "throws") :: (← separated "," (g.read .type) g.rounds))

def methodBody : Reader Node := do
  if ← ahead [";"] then symbol ";" else Node.withRole .body <$> g.read .block

def methodRest (start : List Node) (type : Node) : Reader Node := do
  let name ← name
  let parameters ← formalParameters g
  let dims ← atMostOne (dimensions g)
  let throwing ← atMostOne (throwsClause g)
  let body ← methodBody g
  return .group .methodDeclaration
    (start ++ type.withRole .type :: name.withRole .name :: parameters.withRole .parameters ::
      dims ++ throwing ++ [body])

def elementDefault : Reader (List Node) := do
  match ← maybe (do return [← keyword "default", ← elementValue g]) with
  | some found => return found
  | none => return []

def annotationElementRest (start : List Node) (type : Node) : Reader Node := do
  let name ← name
  let opened ← symbol "("
  let closed ← symbol ")"
  let dims ← atMostOne (dimensions g)
  let value ← elementDefault g
  let semicolon ← symbol ";"
  return .group .annotationElement
    (start ++ type.withRole .type :: name.withRole .name :: opened :: closed :: dims ++ value ++
      [semicolon])

def fieldRest (kind : Kind) (start : List Node) (type : Node) : Reader Node := do
  let declared ← declarators g
  let semicolon ← symbol ";"
  return .group kind (start ++ type.withRole .type :: declared ++ [semicolon])

/-- A call of another constructor, which may only open the body of one. -/
def constructorCall : Reader Node := do
  let outer ← maybe (do
    let object ← primary g
    return [object.withRole .object, ← symbol "."])
  let types ← atMostOne (typeArguments g)
  let target ← (this <|> super)
  let arguments ← arguments g
  let semicolon ← symbol ";"
  return .group .constructorCall
    (outer.getD [] ++ types ++ [target, arguments.withRole .arguments, semicolon])

def plainConstructorCall : Reader Node := do
  let types ← atMostOne (typeArguments g)
  let target ← (this <|> super)
  let arguments ← arguments g
  let semicolon ← symbol ";"
  return .group .constructorCall (types ++ [target, arguments.withRole .arguments, semicolon])

def constructorBody : Reader Node := do
  let opened ← symbol "\x7b"
  let call ← atMostOne (plainConstructorCall g <|> constructorCall g)
  let statements ← many (g.read .statement) g.rounds
  let closed ← symbol "\x7d"
  return (Node.group .constructorBody (opened :: call ++ statements ++ [closed])).withRole .body

def constructorRest (start : List Node) : Reader Node := do
  let name ← name
  let parameters ← formalParameters g
  let throwing ← atMostOne (throwsClause g)
  let body ← constructorBody g
  return .group .constructorDeclaration
    (start ++ name.withRole .name :: parameters.withRole .parameters :: throwing ++ [body])

def compactRest (start : List Node) : Reader Node := do
  let name ← name
  let body ← g.read .block
  return .group .compactConstructor (start ++ [name.withRole .name, body.withRole .body])

def initializer : Reader Node := do
  if ← ahead ["static", "\x7b"] then
    return .group .initializer [← keyword "static", ← g.read .block]
  else g.read .block

def nameThen (next : String) : List Token → Bool
  | t :: rest => t.isName && nextText rest == next
  | [] => false

def classMember : Reader Node := do
  let marks ← modifiers g
  let parameters ← parametersOfType g
  let start := marks ++ parameters
  if ← aheadIs (nameThen "(") then constructorRest g start
  else if ← aheadIs (nameThen "\x7b") then compactRest g start
  else
    let more ← annotations g
    let type ← plainType g
    methodRest g (start ++ more) type <|> fieldRest g .fieldDeclaration start type

/-- A member of a class, enum or record. -/
def classBodyMember : Reader Node := do
  if ← ahead [";"] then symbol ";"
  else initializer g <|> g.read .typeDeclaration <|> classMember g

def interfaceMember : Reader Node := do
  let marks ← modifiers g
  let parameters ← parametersOfType g
  let start := marks ++ parameters
  let more ← annotations g
  let type ← plainType g
  methodRest g (start ++ more) type <|> fieldRest g .constantDeclaration start type

def interfaceBodyMember : Reader Node := do
  if ← ahead [";"] then symbol ";"
  else g.read .typeDeclaration <|> interfaceMember g

def annotationMember : Reader Node := do
  let marks ← modifiers g
  let type ← plainType g
  annotationElementRest g marks type <|> fieldRest g .constantDeclaration marks type

def annotationBodyMember : Reader Node := do
  if ← ahead [";"] then symbol ";"
  else g.read .typeDeclaration <|> annotationMember g

def classBody : Reader Node := body g .classBody (classBodyMember g)

/-! ## Enums -/

def enumConstant : Reader Node := do
  let marks ← modifiers g
  let name ← name
  let arguments ← atMostOne (Node.withRole .arguments <$> arguments g)
  let body ← atMostOne (g.read .classBody)
  return .group .enumConstant
    (marks ++ name.withRole .name :: arguments ++ body)

def enumMembers : Reader Node := do
  let semicolon ← symbol ";"
  let members ← many (classBodyMember g) g.rounds
  return .group .enumMembers (semicolon :: members)

def enumBody : Reader Node := do
  let opened ← symbol "\x7b"
  let constants ← listOf (enumConstant g) g.rounds
  let comma ← atMostOne (symbol ",")
  let members ← atMostOne (enumMembers g)
  let closed ← symbol "\x7d"
  return (Node.group .enumBody (opened :: constants ++ comma ++ members ++ [closed])).withRole .body

/-! ## Type declarations -/

def classRest (marks : List Node) : Reader Node := do
  let word ← keyword "class"
  let name ← name
  let parameters ← parametersOfType g
  let parent ← atMostOne (Node.withRole .superclass <$> superclass g)
  let interfaces ← atMostOne (implementedTypes g)
  let permitted ← atMostOne (permittedTypes g)
  let body ← g.read .classBody
  return .group .classDeclaration
    (marks ++ word :: name.withRole .name :: parameters ++ parent ++ interfaces ++ permitted ++
      [body])

def interfaceRest (marks : List Node) : Reader Node := do
  let word ← keyword "interface"
  let name ← name
  let parameters ← parametersOfType g
  let parents ← atMostOne (extendedTypes g)
  let permitted ← atMostOne (permittedTypes g)
  let body ← body g .interfaceBody (interfaceBodyMember g)
  return .group .interfaceDeclaration
    (marks ++ word :: name.withRole .name :: parameters ++ parents ++ permitted ++ [body])

def enumRest (marks : List Node) : Reader Node := do
  let word ← keyword "enum"
  let name ← name
  let interfaces ← atMostOne (implementedTypes g)
  let body ← enumBody g
  return .group .enumDeclaration (marks ++ word :: name.withRole .name :: interfaces ++ [body])

def recordRest (marks : List Node) : Reader Node := do
  let word ← keyword "record"
  let name ← name
  let parameters ← parametersOfType g
  let components ← formalParameters g
  let interfaces ← atMostOne (implementedTypes g)
  let body ← g.read .classBody
  return .group .recordDeclaration
    (marks ++ word :: name.withRole .name :: parameters ++
      components.withRole .parameters :: interfaces ++ [body])

def annotationRest (marks : List Node) : Reader Node := do
  let sign ← symbol "@"
  let word ← keyword "interface"
  let name ← name
  let body ← body g .annotationBody (annotationBodyMember g)
  return .group .annotationDeclaration (marks ++ [sign, word, name.withRole .name, body])

/-- `record` opens a declaration only in front of a name and its components. -/
def startsRecord : List Token → Bool
  | word :: name :: rest =>
    isWord "record" word && name.isName && ["(", "<"].contains (nextText rest)
  | _ => false

def typeDeclaration : Reader Node := do
  let marks ← modifiers g
  if ← ahead ["class"] then classRest g marks
  else if ← ahead ["interface"] then interfaceRest g marks
  else if ← ahead ["enum"] then enumRest g marks
  else if ← ahead ["@", "interface"] then annotationRest g marks
  else if ← aheadIs startsRecord then recordRest g marks
  else failure

/-! ## Files -/

def packageDeclaration : Reader Node := do
  let marks ← annotations g
  let word ← keyword "package"
  let name ← dottedName g
  let semicolon ← symbol ";"
  return .group .packageDeclaration (marks ++ [word, name, semicolon])

def importDeclaration : Reader Node := do
  let word ← keyword "import"
  let static ← atMostOne (keyword "static")
  let name ← dottedName g
  let all ← maybe (do return [← symbol ".", leaf .asterisk (← token (isSymbol "*"))])
  let semicolon ← symbol ";"
  return .group .importDeclaration (word :: static ++ name :: all.getD [] ++ [semicolon])

def directive : Reader (List Node) := do
  let words ← many (leaf .keyword <$> token fun t =>
    !(["\x7b", "\x7d", ";"].contains t.text)) g.rounds
  return words ++ [← symbol ";"]

def moduleDeclaration : Reader Node := do
  let marks ← annotations g
  let opening ← atMostOne (keyword "open")
  let word ← keyword "module"
  let name ← dottedName g
  let opened ← symbol "\x7b"
  let directives ← many (directive g) g.rounds
  let closed ← symbol "\x7d"
  return .group .moduleDeclaration
    (marks ++ opening ++ word :: name :: opened :: directives.flatten ++ [closed])

def looseMethod : Reader Node := do
  let marks ← modifiers g
  let parameters ← parametersOfType g
  let more ← annotations g
  let type ← plainType g
  methodRest g (marks ++ parameters ++ more) type

def fileItem : Reader Node :=
  packageDeclaration g <|> importDeclaration g <|> moduleDeclaration g <|>
    g.read .typeDeclaration <|> looseMethod g <|> g.read .statement

def rule (g : Grammar) : Construct → Reader Node
  | .expression => expression g
  | .unary => unary g
  | .type => type g
  | .annotationUse => annotationUse g
  | .arguments => arguments g
  | .arrayInitializer => arrayInitializer g
  | .switchBody => switchBody g
  | .statement => statement g
  | .block => block g
  | .classBody => classBody g
  | .typeDeclaration => typeDeclaration g

end EntryPoints.Java.Grammar
