import EntryPoints.Json.Reader

/-!
# The text of a number that is no integer

Such a number stands for the nearest number of double precision, half way for the even one.  It is
shown by the fewest decimal digits that stand for the same number, and by the nearest of several
such decimals.  Very small and very large numbers have an exponent of ten.

Everything is computed on natural numbers, so nothing is rounded but where it is meant to be.
-/

namespace EntryPoints

/-- The natural number nearest to a fraction, half way the even one. -/
def nearestNat (numerator denominator : Nat) : Nat :=
  let whole := numerator / denominator
  let twice := 2 * (numerator % denominator)
  if twice < denominator then whole
  else if denominator < twice then whole + 1
  else whole + whole % 2

/-- The number `digits * 10 ^ exponent`. -/
structure Decimal where
  digits : Nat
  exponent : Int
deriving DecidableEq, Repr

/-- The number `mantissa * 2 ^ exponent`. -/
structure Binary where
  mantissa : Nat
  exponent : Int
deriving DecidableEq, Repr

def digitCount (n : Nat) : Nat := (Nat.toDigits 10 n).length

/-- A fraction divided by a power, which may have a negative exponent. -/
def scaleDown (base : Nat) (exponent : Int) (fraction : Nat × Nat) : Nat × Nat :=
  (fraction.1 * base.pow (-exponent).toNat, fraction.2 * base.pow exponent.toNat)

namespace Decimal

def fraction (d : Decimal) : Nat × Nat := scaleDown 10 (-d.exponent) (d.digits, 1)

/-- Where the point stands, counted from the first digit. -/
def point (d : Decimal) : Int := digitCount d.digits + d.exponent

end Decimal

namespace Binary

def fraction (b : Binary) : Nat × Nat := scaleDown 2 (-b.exponent) (b.mantissa, 1)

/-- The exponents of the smallest and of the largest numbers of double precision. -/
def leastExponent : Int := -1074

def mostExponent : Int := 971

/-- The least mantissa of 53 bits. -/
def leadingBit : Nat := Nat.pow 2 52

/-- The nearest number of double precision to a fraction; nothing if it is too large. -/
def ofFraction? (numerator denominator : Nat) : Option Binary :=
  let guess : Int := (numerator.log2 : Int) - denominator.log2 - 53
  let (top, bottom) := scaleDown 2 guess (numerator, denominator)
  let exponent := max leastExponent (if top / bottom < 2 * leadingBit then guess else guess + 1)
  let (top, bottom) := scaleDown 2 exponent (numerator, denominator)
  let mantissa := nearestNat top bottom
  let rounded : Binary :=
    if mantissa = 2 * leadingBit then ⟨leadingBit, exponent + 1⟩ else ⟨mantissa, exponent⟩
  if rounded.exponent ≤ mostExponent then some rounded else none

/-- The nearest number of double precision to a decimal.  Powers of ten that are out of its reach
are not computed. -/
def ofDecimal? (d : Decimal) : Option Binary :=
  if d.digits = 0 ∨ d.point < -323 then some ⟨0, leastExponent⟩
  else if 309 < d.point then none
  else
    let (numerator, denominator) := d.fraction
    ofFraction? numerator denominator

/-- The decimals of so many digits next to a number, the nearer one first. -/
def neighbours (b : Binary) (point : Int) (count : Nat) : List Decimal :=
  let exponent := point - count
  let (top, bottom) := scaleDown 10 exponent b.fraction
  let below := top / bottom
  if nearestNat top bottom = below then [⟨below, exponent⟩, ⟨below + 1, exponent⟩]
  else [⟨below + 1, exponent⟩, ⟨below, exponent⟩]

/-- The shortest decimal that stands for a number.  Seventeen digits always tell it apart. -/
def shortest (b : Binary) : Decimal :=
  let (numerator, denominator) := b.fraction
  let guess : Int := (digitCount numerator : Int) - digitCount denominator
  let (top, bottom) := scaleDown 10 guess (numerator, denominator)
  let point := if top < bottom then guess else guess + 1
  let found := (List.range 17).findSome? fun count =>
    (b.neighbours point (count + 1)).find? fun d => ofDecimal? d == some b
  found.getD ⟨b.mantissa, b.exponent⟩

end Binary

/-- A decimal in words: plain when its point is near its digits, else with an exponent. -/
def Decimal.text (d : Decimal) : String :=
  let written := Nat.toDigits 10 d.digits
  let digits := (written.reverse.dropWhile (· == '0')).reverse
  let zeros (n : Int) : List Char := List.replicate n.toNat '0'
  let point := d.point
  if digits = [] then "0.0"
  else if point ≤ -4 ∨ 16 < point then
    let power := (point - 1).natAbs
    let sign := if point ≤ 0 then "-" else "+"
    let pad := if power < 10 then "0" else ""
    String.ofList (digits.take 1 ++ (if digits.length = 1 then [] else '.' :: digits.drop 1)) ++
      "e" ++ sign ++ pad ++ toString power
  else if point ≤ 0 then String.ofList ("0.".toList ++ zeros (-point) ++ digits)
  else if digits.length ≤ point then
    String.ofList (digits ++ zeros (point - digits.length) ++ ".0".toList)
  else String.ofList (digits.take point.toNat ++ '.' :: digits.drop point.toNat)

namespace Json

/-- The value of digits with a point and an exponent. -/
def decimalOf (literal : List Char) : Decimal :=
  let (mantissa, power) := literal.span fun c => c ≠ 'e' ∧ c ≠ 'E'
  let (whole, fraction) := mantissa.span (· ≠ '.')
  let exponent : Int := match power.drop 1 with
    | '-' :: digits => -digitsValue digits
    | '+' :: digits => digitsValue digits
    | digits => digitsValue digits
  ⟨digitsValue (whole ++ fraction.drop 1), exponent - (fraction.drop 1).length⟩

def magnitudeText (literal : List Char) : String :=
  match Binary.ofDecimal? (decimalOf literal) with
  | some b => b.shortest.text
  | none => "inf"

/-- The text of a number that was written in a way. -/
def realText (literal : String) : String :=
  match literal with
  | "NaN" => "nan"
  | "Infinity" => "inf"
  | "-Infinity" => "-inf"
  | literal =>
    match literal.toList with
    | '-' :: digits => "-" ++ magnitudeText digits
    | digits => magnitudeText digits

example : realText "1e5" = "100000.0" ∧ realText "-1.50" = "-1.5" ∧ realText "1E-7" = "1e-07" ∧
    realText "123456789012345678.0" = "1.2345678901234568e+17" := by
  decide +kernel

end Json

end EntryPoints
