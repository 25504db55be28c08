import EntryPoints.Json.Basic
import EntryPoints.Text.Pieces
import EntryPoints.Text.Quoted

/-!
# Writing JSON

`pretty` puts every item on a line of its own, indented by two blanks a level, and
leaves characters outside ASCII as they are.  `line` writes the whole value on one
line in ASCII, with the members of every object in the order of their names, so that
two values with the same members have the same line.

Both write integers in decimal, and in strings they escape the quote, the backslash
and the controls; `line` also escapes everything outside the printable ASCII
characters, by UTF-16 units.
-/

namespace EntryPoints.Json

def unicodeEscape (n : Nat) : List Char := '\\' :: 'u' :: Text.hexDigits n 4

/-- The escape of a character that every form of the text needs. -/
def namedEscape? (c : Char) : Option (List Char) :=
  if c = '"' then some ['\\', '"']
  else if c = '\\' then some ['\\', '\\']
  else if c = '\n' then some ['\\', 'n']
  else if c = '\r' then some ['\\', 'r']
  else if c = '\t' then some ['\\', 't']
  else if c.toNat = 8 then some ['\\', 'b']
  else if c.toNat = 12 then some ['\\', 'f']
  else none

def escapeLight (c : Char) : List Char :=
  match namedEscape? c with
  | some escape => escape
  | none => if c.toNat < 32 then unicodeEscape c.toNat else [c]

def escapeAscii (c : Char) : List Char :=
  match namedEscape? c with
  | some escape => escape
  | none =>
    let n := c.toNat
    if 32 ≤ n ∧ n ≤ 126 then [c]
    else if n < 0x10000 then unicodeEscape n
    else
      unicodeEscape (0xD800 + (n - 0x10000) / 0x400) ++
        unicodeEscape (0xDC00 + (n - 0x10000) % 0x400)

def quote (escape : Char → List Char) (s : String) : String :=
  "\"" ++ String.ofList (s.toList.flatMap escape) ++ "\""

def indentation (level : Nat) : String := "\n" ++ String.ofList (List.replicate (2 * level) ' ')

mutual

def prettyAt (level : Nat) : Json → String
  | .null => "null"
  | .bool value => if value then "true" else "false"
  | .int value => toString value
  | .real literal => literal
  | .string value => quote escapeLight value
  | .array [] => "[]"
  | .array (item :: items) =>
    "[" ++ indentation (level + 1) ++ prettyAt (level + 1) item ++ prettyItems (level + 1) items ++
      indentation level ++ "]"
  | .object [] => "\x7b\x7d"
  | .object ((name, value) :: members) =>
    "\x7b" ++ indentation (level + 1) ++ quote escapeLight name ++ ": " ++
      prettyAt (level + 1) value ++ prettyMembers (level + 1) members ++ indentation level ++ "\x7d"

def prettyItems (level : Nat) : List Json → String
  | [] => ""
  | item :: items => "," ++ indentation level ++ prettyAt level item ++ prettyItems level items

def prettyMembers (level : Nat) : List (String × Json) → String
  | [] => ""
  | (name, value) :: members =>
    "," ++ indentation level ++ quote escapeLight name ++ ": " ++ prettyAt level value ++
      prettyMembers level members

end

def pretty (value : Json) : String := prettyAt 0 value

mutual

def line : Json → String
  | .null => "null"
  | .bool value => if value then "true" else "false"
  | .int value => toString value
  | .real literal => literal
  | .string value => quote escapeAscii value
  | .array items => "[" ++ Text.joinWith ", " (lines items) ++ "]"
  | .object members =>
    let sorted := (memberLines members).mergeSort fun a b => decide (a.1 ≤ b.1)
    "\x7b" ++ Text.joinWith ", " (sorted.map (·.2)) ++ "\x7d"

def lines : List Json → List String
  | [] => []
  | item :: items => line item :: lines items

def memberLines : List (String × Json) → List (String × String)
  | [] => []
  | (name, value) :: members =>
    (name, quote escapeAscii name ++ ": " ++ line value) :: memberLines members

end

end EntryPoints.Json
