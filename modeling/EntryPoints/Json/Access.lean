import EntryPoints.Json.Float
import EntryPoints.Text.Pieces
import EntryPoints.Text.Quoted

/-!
# Taking values apart

What is inside of a value is asked for by the name of a member or by going through its
parts, and the answer is a fault when the value is not of a shape that has such parts.
An array has its items as parts, a string its characters, and an object the names of
its members.

`display` is the text of any value: a string as it is, and everything else as a literal
in which strings are quoted.
-/

namespace EntryPoints

/-- Why a value could not be followed or taken apart. -/
inductive ShapeFault where
  /-- The text of the value is nested too deep. -/
  | tooDeep (doing : String)
  | memberMissing (name : String)
  /-- A member was asked of a value that has none. -/
  | notObject (found : Json)
  | notSequence (found : Json)
  /-- Texts were to be joined, and there is no sequence of them. -/
  | notJoinable (found : Json)
  | itemNotText (position : Nat) (found : Json)
  /-- A value was to be cut into pieces that is no text. -/
  | notText (found : Json)
deriving Inhabited

namespace Json

def kindName : Json → String
  | .null => "NoneType"
  | .bool _ => "bool"
  | .int _ => "int"
  | .real _ => "float"
  | .string _ => "str"
  | .array _ => "list"
  | .object _ => "dict"

def memberNamed (name : String) : Json → Except ShapeFault Json
  | .object members =>
    match member? name members with
    | some value => .ok value
    | none => .error (.memberMissing name)
  | value => .error (.notObject value)

def parts? : Json → Option (List Json)
  | .array items => some items
  | .string text => some (text.toList.map fun c => .string (String.singleton c))
  | .object members => some (members.map fun m => .string m.1)
  | _ => none

def parts (value : Json) : Except ShapeFault (List Json) :=
  match value.parts? with
  | some found => .ok found
  | none => .error (.notSequence value)

/-- The texts of a sequence that holds nothing else; `position` is where it starts. -/
def textsFrom (position : Nat) : List Json → Except ShapeFault (List String)
  | [] => .ok []
  | .string text :: rest => (textsFrom (position + 1) rest).map (text :: ·)
  | value :: _ => .error (.itemNotText position value)

/-- The parts of a value, which have to be texts, with a separator between them. -/
def joined (separator : String) (value : Json) : Except ShapeFault String :=
  match value.parts? with
  | some found => (textsFrom 0 found).map (Text.joinWith separator)
  | none => .error (.notJoinable value)

def asText : Json → Except ShapeFault String
  | .string text => .ok text
  | value => .error (.notText value)

mutual

def literal : Json → String
  | .null => "None"
  | .bool value => if value then "True" else "False"
  | .int value => toString value
  | .real literal => realText literal
  | .string value => Text.quoted value
  | .array items => "[" ++ Text.joinWith ", " (literals items) ++ "]"
  | .object members => "\x7b" ++ Text.joinWith ", " (memberLiterals members) ++ "\x7d"

def literals : List Json → List String
  | [] => []
  | item :: rest => literal item :: literals rest

def memberLiterals : List (String × Json) → List String
  | [] => []
  | (name, value) :: rest => (Text.quoted name ++ ": " ++ literal value) :: memberLiterals rest

end

def display : Json → String
  | .string text => text
  | value => literal value

end Json

def ShapeFault.message : ShapeFault → String
  | tooDeep doing => (Json.FaultKind.tooDeep doing).message
  | memberMissing name => Text.quoted name
  | notObject (.array _) => "list indices must be integers or slices, not str"
  | notObject (.string _) => "string indices must be integers, not 'str'"
  | notObject found => "'" ++ found.kindName ++ "' object is not subscriptable"
  | notSequence found => "'" ++ found.kindName ++ "' object is not iterable"
  | notJoinable _ => "can only join an iterable"
  | itemNotText position found =>
    "sequence item " ++ toString position ++ ": expected str instance, " ++ found.kindName ++
      " found"
  | notText found => "'" ++ found.kindName ++ "' object has no attribute 'split'"

end EntryPoints
