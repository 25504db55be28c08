import EntryPoints.Text.Pieces
import EntryPoints.Text.Blank

/-!
# Types as they are written

A type text is a dotted name that may carry type arguments, brackets and dots of
variable arity.  The readings of it here drop everything from the first opening
angle bracket on.  `erase` is the name by which parameter types are compared: the
last segment of the dotted name, with a pair of brackets for every array dimension.
-/

namespace EntryPoints.TypeText

/-- The text before any type arguments. -/
def baseOf (text : List Char) : List Char := Text.trim Text.isBlank (Text.beforeFirst '<' text)

def base (text : String) : String := String.ofList (baseOf text.toList)

/-- Takes pairs of brackets off the end of a text that is given backwards. -/
def dropBrackets : List Char → List Char × Nat
  | ']' :: '[' :: rest => ((dropBrackets rest).1, (dropBrackets rest).2 + 1)
  | rest => (rest, 0)

def brackets (n : Nat) : List Char := (List.replicate n ['[', ']']).flatten

def eraseChars (text : List Char) : List Char :=
  let compact := (baseOf text).filter (· ≠ ' ')
  let (reversed, dimensions) := dropBrackets compact.reverse
  match reversed with
  | '.' :: '.' :: '.' :: rest => Text.afterLast '.' rest.reverse ++ brackets 1
  | _ => Text.afterLast '.' reversed.reverse ++ brackets dimensions

/-- The simple name of a type with its dimensions, without type arguments. -/
def erase (text : String) : String := String.ofList (eraseChars text.toList)

/-- The last segment of a type's name. -/
def simpleName (text : String) : String :=
  String.ofList (Text.afterLast '.' (baseOf text.toList))

def lastSegment (name : String) : String := String.ofList (Text.afterLast '.' name.toList)

def isArray (text : String) : Bool := Text.endsWith "[]" text

def isVarargs (text : String) : Bool := Text.endsWith "..." text

def dropRight (n : Nat) (text : String) : String :=
  String.ofList (text.toList.take (text.toList.length - n))

/-- Removes every group of three dots, from left to right. -/
def withoutDots : List Char → List Char
  | '.' :: '.' :: '.' :: rest => withoutDots rest
  | c :: rest => c :: withoutDots rest
  | [] => []

end EntryPoints.TypeText
