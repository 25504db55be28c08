import EntryPoints.Text.Encoding.Basic
import EntryPoints.Text.Encoding.Characters

/-!
# GB 18030

A character takes one, two or four bytes.  The second byte tells two bytes from four: it
is a digit in the longer form.
-/

namespace EntryPoints.Text.Gb18030

def common : Array Char := (commonRows.flatMap String.toList).toArray

/-- Marks the code points of some characters in an array of flags. -/
def mark (flags : Array Bool) (chars : Array Char) : Array Bool :=
  chars.foldl (fun flags c => flags.setIfInBounds c.toNat true) flags

/-- The code points of a range that are not marked. -/
def unmarked (flags : Array Bool) (start stop : Nat) : Array Char :=
  ((List.range' start (stop - start)).filter fun n => !flags.getD n false).map Char.ofNat |>.toArray

def noMarks : Array Bool := Array.replicate 0x10000 false

/-- The ideographs of the basic block that are not common, and the supplement. -/
def rare : Array Char :=
  unmarked (mark noMarks common) 0x4e00 0x9fa6 ++ (supplement.map Char.ofNat).toArray

def symbols : Array Char :=
  (symbolRuns.flatMap fun (start, count) => (List.range' start count).map Char.ofNat).toArray

/-- The first code point of the rows for private use in front of and behind the common
ideographs. -/
def privateStart (row : Nat) : Nat :=
  if row < 0xb0 then 0xe000 + (row - 0xaa) * 94 else 0xe234 + (row - 0xf8) * 94

def twoBytes? (b c : Nat) : Option Char :=
  if b < 0x81 ∨ 0xfe < b ∨ c < 0x40 ∨ c = 0x7f ∨ 0xfe < c then none
  else
    let cell := if 0x7f < c then c - 0x41 else c - 0x40
    if b ≤ 0xa0 then rare[(b - 0x81) * 190 + cell]?
    else if b ≤ 0xa9 then symbols[(b - 0xa1) * 190 + cell]?
    else if c ≤ 0xa0 then rare[6080 + (b - 0xaa) * 96 + cell]?
    else if 0xb0 ≤ b ∧ b ≤ 0xf7 then common[(b - 0xb0) * 94 + (c - 0xa1)]?
    else some (Char.ofNat (privateStart b + (c - 0xa1)))

/-- The characters of the basic plane that take four bytes. -/
def fourByte : Array Char :=
  let privateRows := [(0xe000, 6 * 94), (0xe234, 7 * 94)].flatMap fun (start, count) =>
    (List.range' start count).map Char.ofNat
  let flags := [common, rare, symbols, privateRows.toArray].foldl mark noMarks
  unmarked flags 0x80 0xd800 ++ unmarked flags 0xe000 0x10000

def fourBytes? (b c d e : Nat) : Option Char :=
  if b < 0x81 ∨ 0xfe < b ∨ d < 0x81 ∨ 0xfe < d ∨ e < 0x30 ∨ 0x39 < e then none
  else
    let number (first : Nat) := (((b - first) * 10 + (c - 0x30)) * 126 + (d - 0x81)) * 10 + (e - 0x30)
    if b < 0x90 then fourByte[number 0x81]?
    else
      let code := 0x10000 + number 0x90
      if code ≤ 0x10ffff then some (Char.ofNat code) else none

def isDigit (n : Nat) : Bool := decide (0x30 ≤ n) && decide (n ≤ 0x39)

def next (b : UInt8) (rest : List UInt8) : Except Defect (Char × Nat) :=
  let illegal : Except Defect (Char × Nat) := .error (.wrong 1 "illegal multibyte sequence")
  let incomplete : Except Defect (Char × Nat) := .error (.cutOff "incomplete multibyte sequence")
  if b.toNat < 0x80 then .ok (Char.ofNat b.toNat, 1)
  else
    match rest with
    | [] => incomplete
    | c :: more =>
      if isDigit c.toNat then
        match more with
        | d :: e :: _ =>
          match fourBytes? b.toNat c.toNat d.toNat e.toNat with
          | some char => .ok (char, 4)
          | none => illegal
        | _ => incomplete
      else
        match twoBytes? b.toNat c.toNat with
        | some char => .ok (char, 2)
        | none => illegal

end Gb18030

def Encoding.gb18030 : Encoding := ⟨"gb18030", Gb18030.next⟩

end EntryPoints.Text
