import EntryPoints.Text.Blank
import EntryPoints.Text.Digit
import EntryPoints.Text.Pieces

/-!
# Integers as text

An integer is written with decimal digits of any script.  A sign may stand in front,
single underscores may stand between digits, and blanks may stand around the whole.
Numerals of more than `longestNumeral` digits are refused.
-/

namespace EntryPoints.Text

def longestNumeral : Nat := 4300

/-- The values of the digits of an unsigned numeral. -/
def digits? : List Char → Option (List Nat)
  | [] => none
  | [c] => (digitValue? c).map ([·])
  | c :: '_' :: rest => do return (← digitValue? c) :: (← digits? rest)
  | c :: rest => do return (← digitValue? c) :: (← digits? rest)

def natural? (s : List Char) : Option Nat := do
  let digits ← digits? s
  if digits.length ≤ longestNumeral then return digits.foldl (fun n d => 10 * n + d) 0
  else none

/-- The blanks that may stand around a numeral; the separators of the
information-interchange controls are none. -/
def isNumeralBlank (c : Char) : Bool := isBlank c && !(0x1c ≤ c.toNat && c.toNat ≤ 0x1f)

def integer? (s : String) : Option Int :=
  match trim isNumeralBlank s.toList with
  | '-' :: rest => (natural? rest).map fun n => -(n : Int)
  | '+' :: rest => (natural? rest).map fun n => (n : Int)
  | rest => (natural? rest).map fun n => (n : Int)

/-- Whether a text reads like a negative number, with or without a fraction; a line end
may follow. -/
def looksNegative (s : List Char) : Bool :=
  let body := (dropEnding? ['\n'] s).getD s
  match body with
  | '-' :: rest =>
    let whole := rest.takeWhile isDigit
    match rest.dropWhile isDigit with
    | [] => !whole.isEmpty
    | '.' :: fraction => !fraction.isEmpty && fraction.all isDigit
    | _ => false
  | _ => false

end EntryPoints.Text
