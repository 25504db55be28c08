import EntryPoints.Java.Grammar.Reader

/-!
# Types, annotations and modifiers

A type is a dotted name whose segments may carry type arguments, or a primitive type,
followed by any number of array dimensions.  Annotations in front of a type are part
of it where types stand alone, and part of the modifiers where they open a declaration.
-/

namespace EntryPoints.Java.Grammar

open Reader

variable (g : Grammar)

def primitiveWords : List String :=
  ["boolean", "byte", "char", "short", "int", "long", "float", "double", "void"]

def modifierWords : List String :=
  ["public", "protected", "private", "abstract", "static", "final", "strictfp", "native",
    "synchronized", "transient", "volatile", "default"]

def isPrimitive (t : Token) : Bool := t.kind == .word && primitiveWords.contains t.text

def dottedName : Reader Node := do
  let first ← name
  let rest ← many (do return [← symbol ".", ← name]) g.rounds
  return if rest.isEmpty then first else .group .scopedName (first :: rest.flatten)

def elementValue : Reader Node := do
  if ← ahead ["@"] then g.read .annotationUse
  else if ← ahead ["\x7b"] then
    let opened ← symbol "\x7b"
    let values ← many (do
      let value ← (g.read .annotationUse <|> g.read .arrayInitializer <|> g.read .expression)
      return value :: (← atMostOne (symbol ","))) g.rounds
    let comma ← atMostOne (symbol ",")
    let closed ← symbol "\x7d"
    return .group .arrayInitializer (opened :: values.flatten ++ comma ++ [closed])
  else g.read .expression

def elementPair : Reader Node := do
  let key ← name
  let equals ← symbol "="
  let value ← elementValue g
  return .group .annotationArguments [key, equals, value]

def annotationArguments : Reader Node := do
  let opened ← symbol "("
  let values ←
    separated "," (elementPair g) g.rounds <|> (do return [← elementValue g]) <|> pure []
  let closed ← symbol ")"
  return .group .annotationArguments (opened :: values ++ [closed])

def annotationUse : Reader Node := do
  let sign ← symbol "@"
  let name ← dottedName g
  let arguments ← atMostOne (annotationArguments g)
  return .group .annotationUse (sign :: name :: arguments)

def annotations : Reader (List Node) := many (g.read .annotationUse) g.rounds

def dimension : Reader (List Node) := do
  let marks ← annotations g
  let opened ← symbol "["
  let closed ← symbol "]"
  return marks ++ [opened, closed]

def dimensions : Reader Node := do
  let first ← dimension g
  let rest ← many (dimension g) g.rounds
  return .group .dimensions (first ++ rest.flatten)

def wildcard : Reader Node := do
  let marks ← annotations g
  let sign ← symbol "?"
  let bound ← maybe (do return [← (keyword "extends" <|> keyword "super"), ← g.read .type])
  return .group .wildcard (marks ++ sign :: bound.getD [])

def typeArguments : Reader Node := do
  let opened ← symbol "<"
  let arguments ← listOf (wildcard g <|> g.read .type) g.rounds
  let closed ← symbol ">"
  return .group .typeArguments (opened :: arguments ++ [closed])

def typeSegment : Reader (List Node) := do
  let marks ← annotations g
  let name ← leaf .typeName <$> token Token.isName
  let arguments ← atMostOne (typeArguments g)
  return marks ++ name :: arguments

/-- The kind of a type made of the given nodes. -/
def typeKind (nodes : List Node) : Kind :=
  if (nodes.getLast?.map (·.kind)) == some .typeArguments then .genericType else .scopedType

/-- A type without dimensions. -/
def simpleType : Reader Node := do
  if ← aheadIs fun tokens => (tokens.head?.map isPrimitive).getD false then
    leaf .primitiveType <$> token isPrimitive
  else
    let name ← leaf .typeName <$> token Token.isName
    let arguments ← atMostOne (typeArguments g)
    let rest ← many (do return (← symbol ".") :: (← typeSegment g)) g.rounds
    let nodes := name :: arguments ++ rest.flatten
    return if nodes.length = 1 then name else .group (typeKind nodes) nodes

/-- A type without annotations in front of it. -/
def plainType : Reader Node := do
  let element ← simpleType g
  match ← maybe (dimensions g) with
  | none => return element
  | some dims => return .group .arrayType [element, dims]

def type : Reader Node := do
  let marks ← annotations g
  let plain ← plainType g
  return if marks.isEmpty then plain else .group .annotatedType (marks ++ [plain])

def typeList : Reader Node := do
  return .group .typeList (← separated "," (g.read .type) g.rounds)

def typeBound : Reader Node := do
  let word ← keyword "extends"
  let types ← separated "&" (g.read .type) g.rounds
  return .group .typeBound (word :: types)

def typeParameter : Reader Node := do
  let marks ← annotations g
  let name ← leaf .typeName <$> token Token.isName
  let bound ← atMostOne (typeBound g)
  return .group .typeParameter (marks ++ name :: bound)

def typeParameters : Reader Node := do
  let opened ← symbol "<"
  let parameters ← separated "," (typeParameter g) g.rounds
  let closed ← symbol ">"
  return .group .typeParameters (opened :: parameters ++ [closed])

/-- `sealed` is a modifier only in front of a declaration. -/
def sealedModifier : Reader (List Node) := do
  let word ← keyword "sealed"
  ensure fun tokens =>
    ["class", "interface", "@"].contains (nextText tokens) ||
      modifierWords.contains (nextText tokens)
  return [word]

def nonSealedModifier : Reader (List Node) := do
  return [← keyword "non", ← symbol "-", ← keyword "sealed"]

def modifier : Reader (List Node) := do
  if ← ahead ["@", "interface"] then failure
  else if ← ahead ["@"] then return [← g.read .annotationUse]
  else
    (do return [leaf .keyword (← token fun t => t.kind == .word && modifierWords.contains t.text)])
      <|> sealedModifier <|> nonSealedModifier

/-- The modifiers in front of a declaration, if there are any. -/
def modifiers : Reader (List Node) := do
  match ← many (modifier g) g.rounds with
  | [] => return []
  | found => return [.group .modifiers found.flatten]

end EntryPoints.Java.Grammar
