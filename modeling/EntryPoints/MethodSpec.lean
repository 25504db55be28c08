import EntryPoints.Failure
import EntryPoints.Code.Symbol
import EntryPoints.Code.TypeText
import EntryPoints.Text.Word

/-!
# Naming a method

A method is named by `owner#name` or `owner.name`, optionally followed by a list of
parameter types in parentheses.  The owner is the longest text before a separator:
the name holds no separator, so the last one decides.  Commas separate parameters
only outside angle brackets.
-/

namespace EntryPoints

structure MethodSpec where
  owner : String
  name : String
  /-- Absent when the spec has no parentheses. -/
  parameters : Option (List String)
deriving DecidableEq, Repr, Inhabited

namespace MethodSpec

def isNameChar (c : Char) : Bool := Text.isWord c || c == '$'

def isOwnerChar (c : Char) : Bool := isNameChar c || c == '.'

def isSeparator (c : Char) : Bool := c == '#' || c == '.'

/-- The pieces between commas that stand outside angle brackets. -/
def splitParameters (depth : Int) (piece : List Char) : List Char → List (List Char)
  | [] => [piece.reverse]
  | c :: rest =>
    let depth := if c = '<' then depth + 1 else if c = '>' then depth - 1 else depth
    if c = ',' ∧ depth = 0 then piece.reverse :: splitParameters depth [] rest
    else splitParameters depth (c :: piece) rest

/-- The parameter types in the text between the parentheses. -/
def parametersOf (text : List Char) : List (List Char) :=
  ((splitParameters 0 [] text).map (Text.trim Text.isBlank)).filter (· ≠ [])

/-- What follows the name: nothing, or blanks and a parenthesised text that holds no
closing parenthesis. -/
def tail? (rest : List Char) : Option (Option (List Char)) :=
  match rest.dropWhile Text.isBlank with
  | [] => some none
  | '(' :: inner =>
    if inner.dropWhile (· ≠ ')') = [')'] then some (some (inner.takeWhile (· ≠ ')'))) else none
  | _ => none

/-- Splits at the last separator. -/
def split? (head : List Char) : Option (List Char × List Char) :=
  let name := (head.reverse.takeWhile (fun c => !isSeparator c)).reverse
  match head.reverse.dropWhile (fun c => !isSeparator c) with
  | _ :: owner =>
    if name ≠ [] ∧ owner ≠ [] ∧ owner.all isOwnerChar then some (owner.reverse, name) else none
  | [] => none

def ofChars? (text : List Char) : Option MethodSpec := do
  let text := Text.trim Text.isBlank text
  let belongs := fun c => isOwnerChar c || isSeparator c
  let (owner, name) ← split? (text.takeWhile belongs)
  let parameters ← tail? (text.dropWhile belongs)
  return ⟨String.ofList owner, String.ofList name,
    parameters.map fun inner => (parametersOf inner).map String.ofList⟩

def parse (spec : String) : Except Failure MethodSpec :=
  match ofChars? spec.toList with
  | some parsed => .ok parsed
  | none => .error (.malformedSpec spec)

/-- Whether a method has the parameter types that a spec asks for. -/
def accepts (spec : MethodSpec) (m : Method) : Bool :=
  match spec.parameters with
  | none => true
  | some wanted => m.parameters.map TypeText.erase == wanted.map TypeText.erase

/-- Picks the one method that a spec can mean. -/
def pick (text : String) (spec : MethodSpec) (candidates : List Method) :
    Except Failure Method :=
  match candidates.filter spec.accepts with
  | [] => .error (.methodNotFound text)
  | [m] => .ok m
  | several => .error (.methodAmbiguous text (several.map Method.signature))

end MethodSpec

end EntryPoints
