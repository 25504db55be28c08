import EntryPoints.Java.Token

/-!
# Splitting Java text into tokens

The text is read from left to right.  The first character decides what kind of piece
it starts, and a reader for that kind says how far the piece goes.  A reader looks at
the characters after the first one and answers with those that belong to the piece, so
every piece has at least one character and the reading ends.

Offsets count bytes of the UTF-8 form; lines end at a line feed.
-/

namespace EntryPoints.Java

inductive Shape where
  | gap
  | comment (isBlock : Bool)
  | token (kind : TokenKind)
deriving DecidableEq, Repr

namespace Lexer

def isGap (c : Char) : Bool :=
  c == ' ' || c == '\t' || c == '\n' || c == '\r' || c.toNat == 11 || c.toNat == 12

def isNameStart (c : Char) : Bool :=
  c.isAlpha || c == '_' || c == '$' || decide (128 ≤ c.toNat)

def isNamePart (c : Char) : Bool := isNameStart c || c.isDigit

def isDigitPart (c : Char) : Bool := c.isDigit || c == '_'

def isHexPart (c : Char) : Bool :=
  isDigitPart c || decide ('a' ≤ c ∧ c ≤ 'f') || decide ('A' ≤ c ∧ c ≤ 'F')

def inSequence (parts : List (List Char → List Char)) (rest : List Char) : List Char :=
  parts.foldl (fun taken part => taken ++ part (rest.drop taken.length)) []

/-- At most one character of a set. -/
def optionally (allowed : List Char) : List Char → List Char
  | c :: _ => if allowed.contains c then [c] else []
  | [] => []

def pointPart (isPart : Char → Bool) : List Char → List Char
  | '.' :: rest => '.' :: rest.takeWhile isPart
  | _ => []

def exponentPart (marks : List Char) : List Char → List Char
  | c :: rest =>
    if marks.contains c then
      let sign := optionally ['+', '-'] rest
      c :: sign ++ (rest.drop sign.length).takeWhile isDigitPart
    else []
  | [] => []

def hexParts : List (List Char → List Char) :=
  [List.takeWhile isHexPart, pointPart isHexPart, exponentPart ['p', 'P'],
    optionally ['l', 'L', 'f', 'F', 'd', 'D']]

def binaryParts : List (List Char → List Char) :=
  [List.takeWhile isDigitPart, optionally ['l', 'L']]

def decimalParts : List (List Char → List Char) :=
  [List.takeWhile isDigitPart, pointPart isDigitPart, exponentPart ['e', 'E'],
    optionally ['l', 'L', 'f', 'F', 'd', 'D']]

/-- What belongs to a number that starts with the digit or point `c`. -/
def numberTail (c : Char) (rest : List Char) : List Char :=
  match c, rest with
  | '.', rest =>
    inSequence [List.takeWhile isDigitPart, exponentPart ['e', 'E'],
      optionally ['f', 'F', 'd', 'D']] rest
  | '0', x :: after =>
    if x = 'x' ∨ x = 'X' then x :: inSequence hexParts after
    else if x = 'b' ∨ x = 'B' then x :: inSequence binaryParts after
    else inSequence decimalParts (x :: after)
  | _, rest => inSequence decimalParts rest

def isHexNumber : List Char → Bool
  | '0' :: x :: _ => x == 'x' || x == 'X'
  | _ => false

/-- Whether a number has a fraction, an exponent or a suffix of a floating type. -/
def isFloating (number : List Char) : Bool :=
  if isHexNumber number then number.any fun c => ['.', 'p', 'P'].contains c
  else number.any fun c => ['.', 'e', 'E', 'f', 'F', 'd', 'D'].contains c

/-- What belongs to a quoted text, up to the first closing quote that is not escaped. -/
def quotedTail (quote : Char) : List Char → Option (List Char)
  | '\\' :: c :: rest => (quotedTail quote rest).map ('\\' :: c :: ·)
  | c :: rest => if c = quote then some [c] else (quotedTail quote rest).map (c :: ·)
  | [] => none

/-- What belongs to a text block after its first three quotes. -/
def blockTail : List Char → Option (List Char)
  | '\\' :: c :: rest => (blockTail rest).map ('\\' :: c :: ·)
  | '"' :: '"' :: '"' :: _ => some ['"', '"', '"']
  | c :: rest => (blockTail rest).map (c :: ·)
  | [] => none

/-- What belongs to a block comment after its first two characters. -/
def commentTail : List Char → Option (List Char)
  | '*' :: '/' :: _ => some ['*', '/']
  | c :: rest => (commentTail rest).map (c :: ·)
  | [] => none

/-- Symbols of more than one character, longer ones first; none begins with `>`. -/
def longSymbols : List (List Char) :=
  ["...", "<<=", "==", "!=", "<=", "<<", "&&", "||", "++", "--", "+=", "-=", "*=", "/=", "&=",
    "|=", "^=", "%=", "->", "::"].map String.toList

def symbolTail (c : Char) (rest : List Char) : List Char :=
  match longSymbols.find? (fun symbol => symbol.isPrefixOf (c :: rest)) with
  | some symbol => symbol.drop 1
  | none => []

/-- The kind of the piece that starts with `c`, and the further characters of it. -/
def piece (c : Char) (rest : List Char) : Option (Shape × List Char) :=
  if isGap c then some (.gap, rest.takeWhile isGap)
  else if isNameStart c then some (.token .word, rest.takeWhile isNamePart)
  else if c.isDigit || (c == '.' && (rest.head?.map Char.isDigit).getD false) then
    let tail := numberTail c rest
    some (.token (if isFloating (c :: tail) then .floating else .integer), tail)
  else
    match c, rest with
    | '/', '/' :: _ => some (.comment false, rest.takeWhile (· ≠ '\n'))
    | '/', '*' :: after => (commentTail after).map fun tail => (.comment true, '*' :: tail)
    | '"', '"' :: '"' :: after =>
      (blockTail after).map fun tail => (.token .string, '"' :: '"' :: tail)
    | '"', _ => (quotedTail '"' rest).map fun tail => (.token .string, tail)
    | '\'', _ => (quotedTail '\'' rest).map fun tail => (.token .character, tail)
    | _, _ => some (.token .symbol, symbolTail c rest)

/-- A place in the text: the offset of a byte and the line it is on. -/
structure Cursor where
  offset : Nat
  line : Nat

def Cursor.advance (cursor : Cursor) (text : List Char) : Cursor where
  offset := text.foldl (fun offset c => offset + c.utf8Size) cursor.offset
  line := cursor.line + text.count '\n'

structure Pieces where
  tokens : List Token
  comments : List Comment

/-- Reads tokens and comments up to the end of the text. -/
def scan (cursor : Cursor) (text : List Char) : Option Pieces :=
  match text with
  | [] => some ⟨[], []⟩
  | c :: rest =>
    match piece c rest with
    | none => none
    | some (shape, tail) =>
      let next := cursor.advance (c :: tail)
      let span : Span := ⟨cursor.offset, next.offset, cursor.line⟩
      match scan next (rest.drop tail.length) with
      | none => none
      | some ⟨tokens, comments⟩ =>
        match shape with
        | .gap => some ⟨tokens, comments⟩
        | .comment isBlock => some ⟨tokens, ⟨isBlock, String.ofList (c :: tail), span⟩ :: comments⟩
        | .token kind => some ⟨⟨kind, String.ofList (c :: tail), span⟩ :: tokens, comments⟩
termination_by text.length
decreasing_by simp only [List.length_cons, List.length_drop]; omega

/-- The tokens and comments of a text; a byte order mark at its start is skipped. -/
def read (text : String) : Option Pieces :=
  match text.toList with
  | '\uFEFF' :: rest => scan ⟨3, 1⟩ rest
  | chars => scan ⟨0, 1⟩ chars

end Lexer

end EntryPoints.Java
