import EntryPoints.Json.Basic
import EntryPoints.Table

/-!
# Reading JSON

A reader takes a list of characters and gives back a value with the rest of the text,
which is shorter.  The first fault ends the reading.  A fault knows how much of the text
was left, and `Fault.describe` turns that into a position: offset, line and column.

Every array and every object that is open takes a level of the stack, of which there are
not many.  A text that is nested deeper is not read, and neither is a fault told when the
levels that are left do not suffice for saying what it is.

Besides the standard the reader takes `NaN`, `Infinity` and `-Infinity` as numbers.  A
member whose name is repeated takes the place of the earlier one.
-/

namespace EntryPoints.Json

inductive FaultKind where
  | byteOrderMark
  | value
  | memberName
  | colon
  | comma
  | unterminatedString
  | controlCharacter
  | escape
  | unicodeEscape
  | extraData
  /-- An integer of more digits than are read. -/
  | longInteger (digits : Nat)
  /-- No level was left for what was to be done. -/
  | tooDeep (doing : String)
deriving DecidableEq, Repr

/-- The most digits of an integer that is read. -/
def longestInteger : Nat := 4300

def FaultKind.message : FaultKind → String
  | .byteOrderMark => "Unexpected UTF-8 BOM (decode using utf-8-sig)"
  | .value => "Expecting value"
  | .memberName => "Expecting property name enclosed in double quotes"
  | .colon => "Expecting ':' delimiter"
  | .comma => "Expecting ',' delimiter"
  | .unterminatedString => "Unterminated string starting at"
  | .controlCharacter => "Invalid control character at"
  | .escape => "Invalid \\escape"
  | .unicodeEscape => "Invalid \\uXXXX escape"
  | .extraData => "Extra data"
  | .longInteger digits =>
    "Exceeds the limit (" ++ toString longestInteger ++
      " digits) for integer string conversion: value has " ++ toString digits ++
      " digits; use sys.set_int_max_str_digits() to increase the limit"
  | .tooDeep doing => "maximum recursion depth exceeded" ++ doing

/-- Whether the message of a fault says where it is. -/
def FaultKind.isPlaced : FaultKind → Bool
  | .longInteger _ | .tooDeep _ => false
  | _ => true

/-- What is wrong, and how many characters were left where it is wrong. -/
structure Fault where
  kind : FaultKind
  left : Nat
deriving DecidableEq, Repr

/-- A fault that is found with so many levels left.  It takes three of them to tell it. -/
def Fault.toldWithin (levels : Nat) (kind : FaultKind) (left : Nat) : Fault :=
  ⟨if 3 ≤ levels then kind else .tooDeep "", left⟩

/-- The fault in words, for the text in which it was found. -/
def Fault.describe (text : List Char) (fault : Fault) : String :=
  let before := text.take (text.length - fault.left)
  let line := before.count '\n' + 1
  let column := (before.reverse.takeWhile (· ≠ '\n')).length + 1
  if fault.kind.isPlaced then
    fault.kind.message ++ ": line " ++ toString line ++ " column " ++ toString column ++
      " (char " ++ toString before.length ++ ")"
  else fault.kind.message

def isGap (c : Char) : Bool := c == ' ' || c == '\t' || c == '\n' || c == '\r'

def skipGaps (s : List Char) : List Char := s.dropWhile isGap

theorem length_skipGaps_le (s : List Char) : (skipGaps s).length ≤ s.length :=
  (List.dropWhile_suffix isGap).length_le

def hexValue? (c : Char) : Option Nat :=
  if '0' ≤ c ∧ c ≤ '9' then some (c.toNat - '0'.toNat)
  else if 'a' ≤ c ∧ c ≤ 'f' then some (c.toNat - 'a'.toNat + 10)
  else if 'A' ≤ c ∧ c ≤ 'F' then some (c.toNat - 'A'.toNat + 10)
  else none

def hexUnit? (a b c d : Char) : Option Nat := do
  return (((← hexValue? a) * 16 + (← hexValue? b)) * 16 + (← hexValue? c)) * 16 + (← hexValue? d)

def namedEscape (c : Char) : Option Nat :=
  match c with
  | '"' => some 34
  | '\\' => some 92
  | '/' => some 47
  | 'b' => some 8
  | 'f' => some 12
  | 'n' => some 10
  | 'r' => some 13
  | 't' => some 9
  | _ => none

/-- Joins the halves of a surrogate pair.  A half on its own is no character, and U+FFFD stands for
it. -/
def joinUnits : List Nat → List Char
  | high :: low :: rest =>
    if 0xD800 ≤ high ∧ high < 0xDC00 ∧ 0xDC00 ≤ low ∧ low < 0xE000 then
      Char.ofNat (0x10000 + (high - 0xD800) * 0x400 + (low - 0xDC00)) :: joinUnits rest
    else single high :: joinUnits (low :: rest)
  | [unit] => [single unit]
  | [] => []
where
  single (unit : Nat) : Char := if 0xD800 ≤ unit ∧ unit < 0xE000 then '\uFFFD' else Char.ofNat unit

abbrev Rest (s : List Char) := { rest : List Char // rest.length < s.length }

/-- The code units of a string up to its closing quote; `opening` is what was left at
the opening one. -/
def stringUnits (levels opening : Nat) :
    (s : List Char) → Except Fault (List Nat × Rest s)
  | [] => .error (.toldWithin levels .unterminatedString opening)
  | '"' :: rest => .ok ([], ⟨rest, by simp⟩)
  | '\\' :: 'u' :: a :: b :: c :: d :: rest =>
    match hexUnit? a b c d with
    | some unit =>
      if rest.isEmpty then .error (.toldWithin levels .unicodeEscape (rest.length + 5))
      else
        match stringUnits levels opening rest with
        | .ok (units, ⟨after, h⟩) => .ok (unit :: units, ⟨after, by simp; omega⟩)
        | .error fault => .error fault
    | none => .error (.toldWithin levels .unicodeEscape (rest.length + 5))
  | '\\' :: 'u' :: rest => .error (.toldWithin levels .unicodeEscape (rest.length + 1))
  | '\\' :: c :: rest =>
    match namedEscape c with
    | some unit =>
      match stringUnits levels opening rest with
      | .ok (units, ⟨after, h⟩) => .ok (unit :: units, ⟨after, by simp; omega⟩)
      | .error fault => .error fault
    | none => .error (.toldWithin levels .escape (rest.length + 2))
  | c :: rest =>
    if c = '\\' then .error (.toldWithin levels .unterminatedString opening)
    else if c.toNat < 32 then .error (.toldWithin levels .controlCharacter (rest.length + 1))
    else
      match stringUnits levels opening rest with
      | .ok (units, ⟨after, h⟩) => .ok (c.toNat :: units, ⟨after, by simp; omega⟩)
      | .error fault => .error fault

def stringAfterQuote (levels : Nat) (rest : List Char) : Except Fault (String × Rest rest) :=
  match stringUnits levels (rest.length + 1) rest with
  | .ok (units, after) => .ok (String.ofList (joinUnits units), after)
  | .error fault => .error fault

def digitsOf (s : List Char) : List Char := s.takeWhile Char.isDigit

/-- The integer part of a number without its sign. -/
def integerDigits (s : List Char) : List Char :=
  match s with
  | '0' :: _ => ['0']
  | _ => digitsOf s

/-- A point with at least one digit. -/
def fractionPart (s : List Char) : List Char :=
  match s with
  | '.' :: rest => if digitsOf rest = [] then [] else '.' :: digitsOf rest
  | _ => []

/-- The mark of an exponent with its sign and at least one digit. -/
def exponentPart (s : List Char) : List Char :=
  match s with
  | e :: rest =>
    if e = 'e' ∨ e = 'E' then
      let sign := match rest with
        | '+' :: _ => ['+']
        | '-' :: _ => ['-']
        | _ => []
      let digits := digitsOf (rest.drop sign.length)
      if digits = [] then [] else e :: sign ++ digits
    else []
  | [] => []

def digitsValue (digits : List Char) : Nat :=
  digits.foldl (fun n c => n * 10 + (c.toNat - '0'.toNat)) 0

/-- The number at the start of a text, with the number of characters it takes. -/
def number? (s : List Char) : Option (Except FaultKind Json × Nat) :=
  let sign := match s with
    | '-' :: _ => ['-']
    | _ => []
  let whole := integerDigits (s.drop sign.length)
  if whole = [] then none
  else
    let afterWhole := s.drop (sign.length + whole.length)
    let fraction := fractionPart afterWhole
    let exponent := exponentPart (afterWhole.drop fraction.length)
    let literal := sign ++ whole ++ fraction ++ exponent
    if fraction = [] ∧ exponent = [] then
      let n : Int := digitsValue whole
      let found : Except FaultKind Json :=
        if whole.length ≤ longestInteger then .ok (.int (if sign = [] then n else -n))
        else .error (.longInteger whole.length)
      some (found, literal.length)
    else some (.ok (.real (String.ofList literal)), literal.length)

def constants : List (String × Json) :=
  [("null", .null), ("true", .bool true), ("false", .bool false), ("NaN", .real "NaN"),
    ("Infinity", .real "Infinity"), ("-Infinity", .real "-Infinity")]

def isReal : Json → Bool
  | .real _ => true
  | _ => false

/-- The constant or number at the start of a text.  It takes a level to look up a constant that
stands for a number. -/
def scalar? (levels : Nat) (s : List Char) : Option (Except FaultKind Json × Nat) :=
  match constants.find? fun c => c.1.toList.isPrefixOf s with
  | some (word, value) =>
    some (if levels = 0 ∧ value.isReal then .error (.tooDeep "") else .ok value, word.length)
  | none => number? s

mutual

/-- The value at the start of a text, in which so many arrays and objects may lie in each other. -/
def value (levels : Nat) (s : List Char) : Except Fault (Json × Rest s) :=
  match s with
  | '"' :: rest =>
    match stringAfterQuote levels rest with
    | .ok (text, ⟨after, _⟩) => .ok (.string text, ⟨after, by simp; omega⟩)
    | .error fault => .error fault
  | '[' :: rest =>
    match levels with
    | 0 => .error ⟨.tooDeep " while decoding a JSON array from a unicode string", rest.length + 1⟩
    | levels + 1 =>
      match h : skipGaps rest with
      | ']' :: after =>
        .ok (.array [], ⟨after, by have := length_skipGaps_le rest; simp [h] at this; simp; omega⟩)
      | body =>
        have : body.length ≤ rest.length := h ▸ length_skipGaps_le rest
        match items levels body with
        | .ok (found, ⟨after, _⟩) =>
          .ok (.array found, ⟨after, by simp; omega⟩)
        | .error fault => .error fault
  | '\x7b' :: rest =>
    match levels with
    | 0 => .error ⟨.tooDeep " while decoding a JSON object from a unicode string", rest.length + 1⟩
    | levels + 1 =>
      match h : skipGaps rest with
      | '\x7d' :: after =>
        .ok (.object [], ⟨after, by have := length_skipGaps_le rest; simp [h] at this; simp; omega⟩)
      | body =>
        have : body.length ≤ rest.length := h ▸ length_skipGaps_le rest
        match members levels body with
        | .ok (found, ⟨after, _⟩) =>
          .ok (.object (Table.ofList found).entries, ⟨after, by simp; omega⟩)
        | .error fault => .error fault
  | s =>
    match scalar? levels s with
    | some (.ok found, n) =>
      if h : (s.drop n).length < s.length then .ok (found, ⟨s.drop n, h⟩)
      else .error ⟨.value, s.length⟩
    | some (.error kind, _) => .error ⟨kind, s.length⟩
    | none => .error ⟨.value, s.length⟩
termination_by (s.length, 0)

/-- The items of an array up to its closing bracket; there is at least one. -/
def items (levels : Nat) (s : List Char) : Except Fault (List Json × Rest s) :=
  match value levels s with
  | .error fault => .error fault
  | .ok (item, ⟨rest, _⟩) =>
    match h : skipGaps rest with
    | ']' :: after =>
      .ok ([item], ⟨after, by have := length_skipGaps_le rest; simp [h] at this; omega⟩)
    | ',' :: more =>
      have : more.length < s.length := by
        have := length_skipGaps_le rest; simp [h] at this; omega
      have := length_skipGaps_le more
      match items levels (skipGaps more) with
      | .ok (found, ⟨after, _⟩) => .ok (item :: found, ⟨after, by omega⟩)
      | .error fault => .error fault
    | stuck => .error (.toldWithin levels .comma stuck.length)
termination_by (s.length, 1)

/-- The members of an object up to its closing brace; there is at least one. -/
def members (levels : Nat) (s : List Char) : Except Fault (List (String × Json) × Rest s) :=
  match s with
  | '"' :: opened =>
    match stringAfterQuote levels opened with
    | .error fault => .error fault
    | .ok (name, ⟨named, _⟩) =>
      match h : skipGaps named with
      | ':' :: afterColon =>
        have : afterColon.length < opened.length + 1 := by
          have := length_skipGaps_le named; simp [h] at this; omega
        have := length_skipGaps_le afterColon
        match value levels (skipGaps afterColon) with
        | .error fault => .error fault
        | .ok (item, ⟨rest, _⟩) =>
          match k : skipGaps rest with
          | '\x7d' :: after =>
            .ok ([(name, item)],
              ⟨after, by have := length_skipGaps_le rest; simp [k] at this; simp; omega⟩)
          | ',' :: more =>
            have : more.length < opened.length + 1 := by
              have := length_skipGaps_le rest; simp [k] at this; omega
            have := length_skipGaps_le more
            match members levels (skipGaps more) with
            | .ok (found, ⟨after, _⟩) => .ok ((name, item) :: found, ⟨after, by simp; omega⟩)
            | .error fault => .error fault
          | stuck => .error (.toldWithin levels .comma stuck.length)
      | stuck => .error (.toldWithin levels .colon stuck.length)
  | s => .error (.toldWithin levels .memberName s.length)
termination_by (s.length, 1)

end

/-- The value that a text holds, in which so many arrays and objects may lie in each other. -/
def readWithin (levels : Nat) (text : String) : Except Fault Json :=
  let s := text.toList
  match s with
  | '\uFEFF' :: _ => .error ⟨.byteOrderMark, s.length⟩
  | _ =>
    match value levels (skipGaps s) with
    | .error fault => .error fault
    | .ok (found, ⟨rest, _⟩) =>
      match skipGaps rest with
      | [] => .ok found
      | extra => .error ⟨.extraData, extra.length⟩

/-- The levels that are left for reading when a command is run as a script. -/
def usualLevels : Nat := 993

def read (text : String) : Except String Json :=
  (readWithin usualLevels text).mapError (Fault.describe text.toList)

end EntryPoints.Json
