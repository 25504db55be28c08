/-!
# Patterns for file names

A pattern is made of characters that stand for themselves, `?` for any character, `*`
for any text, and character sets in brackets.  A closing bracket that comes first in a
set belongs to it, and a bracket that is never closed stands for itself.

A set lists characters and ranges.  A hyphen makes a range of its neighbours unless it
stands at either end of the set or right behind a range.  A range that runs backwards
holds nothing and is as good as absent.  An exclamation mark in front of what is left
means all other characters.
-/

namespace EntryPoints

namespace Glob

/-- A part of a character set: a character, or a range of them. -/
inductive Member where
  | single (c : Char)
  | range (first last : Char)
deriving DecidableEq, Repr, Inhabited

def Member.isForward : Member → Bool
  | single _ => true
  | range first last => decide (first ≤ last)

def Member.holds (c : Char) : Member → Bool
  | single d => c == d
  | range first last => decide (first ≤ c) && decide (c ≤ last)

def members : List Char → List Member
  | first :: '-' :: last :: rest => .range first last :: members rest
  | c :: rest => .single c :: members rest
  | [] => []

/-- The members of a set, with the mark of negation as a member of its own. -/
def rawMembers : List Char → List Member
  | '!' :: rest => .single '!' :: members rest
  | text => members text

inductive Piece where
  | exactly (c : Char)
  | anyOne
  | anyText
  | oneOf (members : List Member)
  | noneOf (members : List Member)
deriving DecidableEq, Repr, Inhabited

/-- The set that a text between brackets describes. -/
def setOf (text : List Char) : Piece :=
  match (rawMembers text).filter Member.isForward with
  | .single '!' :: others => .noneOf others
  | .range '!' last :: others => .noneOf (.single '-' :: .single last :: others)
  | members => .oneOf members

/-- Splits behind a beginning that may hold a closing bracket. -/
def splitStart : List Char → List Char × List Char
  | '!' :: ']' :: rest => (['!', ']'], rest)
  | ']' :: rest => ([']'], rest)
  | text => ([], text)

/-- The text of a set and the length of it, given what follows the opening bracket. -/
def setText? (text : List Char) : Option (List Char) :=
  let (start, rest) := splitStart text
  if rest.contains ']' then some (start ++ rest.takeWhile (· ≠ ']')) else none

/-- The pieces of a pattern; the first `skip` characters belong to a set. -/
def pieces (skip : Nat) : List Char → List Piece
  | [] => []
  | c :: rest =>
    match skip with
    | skip + 1 => pieces skip rest
    | 0 =>
      if c = '*' then .anyText :: pieces 0 rest
      else if c = '?' then .anyOne :: pieces 0 rest
      else if c = '[' then
        match setText? rest with
        | some text => setOf text :: pieces (text.length + 1) rest
        | none => .exactly c :: pieces 0 rest
      else .exactly c :: pieces 0 rest

def Piece.accepts (c : Char) : Piece → Bool
  | exactly d => c == d
  | anyOne | anyText => true
  | oneOf members => members.any (·.holds c)
  | noneOf members => !members.any (·.holds c)

/-- Whether some ending of a text, the text itself included, has a property. -/
def anyEnding (holds : List Char → Bool) : List Char → Bool
  | [] => holds []
  | c :: rest => holds (c :: rest) || anyEnding holds rest

def matchPieces : List Piece → List Char → Bool
  | [], text => text.isEmpty
  | .anyText :: more, text => anyEnding (matchPieces more) text
  | _ :: _, [] => false
  | piece :: more, c :: text => piece.accepts c && matchPieces more text

end Glob

def fitsPattern (name pattern : String) : Bool :=
  Glob.matchPieces (Glob.pieces 0 pattern.toList) name.toList

end EntryPoints
