import EntryPoints.Text.Pieces
import EntryPoints.Text.Word
import EntryPoints.Text.Blank

/-!
# Methods mentioned in documentation

A documentation comment mentions a method by a link or a see tag, blanks, and
`Type#method` with an optional list of parameter types.  The type may be left out.  A
parenthesis that is never closed does not belong to the mention.

Mentions do not overlap: the search for the next one goes on behind the last one.
-/

namespace EntryPoints

structure DocReference where
  /-- Empty when the method is mentioned without its type. -/
  type : String
  name : String
  /-- The text between the parentheses. -/
  parameters : Option String
deriving DecidableEq, Repr, Inhabited

namespace DocReference

def openings : List (List Char) :=
  ["\x7b@linkplain".toList, "\x7b@link".toList, "@see".toList]

/-- What follows one of several beginnings and at least one blank. -/
def afterOpening? (text : List Char) : Option (List Char) :=
  openings.findSome? fun opening =>
    if opening.isPrefixOf text then
      match text.drop opening.length with
      | c :: rest => if Text.isBlank c then some (rest.dropWhile Text.isBlank) else none
      | [] => none
    else none

def isTypeChar (c : Char) : Bool := Text.isWord c || c == '.' || c == '$'

/-- The text between parentheses at the start of a text, and what follows it. -/
def parenthesized? : List Char → Option (List Char × List Char)
  | '(' :: rest =>
    match rest.dropWhile (· ≠ ')') with
    | _ :: behind => some (rest.takeWhile (· ≠ ')'), behind)
    | [] => none
  | _ => none

/-- The mention at the start of a text, and what follows it. -/
def atStart? (text : List Char) : Option (DocReference × List Char) := do
  let text ← afterOpening? text
  match text.dropWhile isTypeChar with
  | '#' :: rest =>
    let type := String.ofList (text.takeWhile isTypeChar)
    let name := String.ofList (rest.takeWhile Text.isWord)
    if name = "" then none
    else
      let behind := rest.dropWhile Text.isWord
      match parenthesized? behind with
      | some (inner, behind) => some (⟨type, name, some (String.ofList inner)⟩, behind)
      | none => some (⟨type, name, none⟩, behind)
  | _ => none

/-- The mentions in a text; the first `skip` characters belong to the last one. -/
def scan (skip : Nat) : List Char → List DocReference
  | [] => []
  | c :: rest =>
    match skip with
    | skip + 1 => scan skip rest
    | 0 =>
      match atStart? (c :: rest) with
      | some (reference, behind) => reference :: scan (rest.length - behind.length) rest
      | none => scan 0 rest

def allIn (text : String) : List DocReference := scan 0 text.toList

/-- The parameter types that are mentioned, without their names. -/
def parameterTypes (reference : DocReference) : Option (List String) :=
  reference.parameters.map fun text =>
    (Text.splitOn ',' text.toList).filterMap fun piece =>
      (Text.words Text.isBlank piece).head?.map String.ofList

end DocReference

end EntryPoints
