/-!
# Reading text from bytes

A reader of an encoding looks at the bytes from some place on and finds the next
character with the number of bytes it takes, or says what is wrong there.  Decoding
repeats this until the bytes end, and a fault tells where it was found.
-/

namespace EntryPoints.Text

/-- What is wrong with the next bytes. -/
inductive Defect where
  /-- So many bytes cannot be right. -/
  | wrong (count : Nat) (reason : String)
  /-- The bytes end within a character. -/
  | cutOff (reason : String)
deriving DecidableEq, Repr, Inhabited

structure DecodeFault where
  encoding : String
  byte : UInt8
  start : Nat
  stop : Nat
  reason : String
deriving DecidableEq, Repr, Inhabited

namespace DecodeFault

def hexDigit (n : Nat) : Char := (Nat.toDigits 16 (n % 16)).headD '0'

def message (f : DecodeFault) : String :=
  let place :=
    if f.stop = f.start + 1 then
      "byte 0x" ++ String.ofList [hexDigit (f.byte.toNat / 16), hexDigit f.byte.toNat] ++
        " in position " ++ toString f.start
    else "bytes in position " ++ toString f.start ++ "-" ++ toString (f.stop - 1)
  "'" ++ f.encoding ++ "' codec can't decode " ++ place ++ ": " ++ f.reason

end DecodeFault

/-- An encoding with the reader of its next character; the reader is never asked about
no bytes at all. -/
structure Encoding where
  name : String
  next : UInt8 → List UInt8 → Except Defect (Char × Nat)

namespace Encoding

/-- Decodes bytes; the first `skip` of them belong to the last character that was read,
and `done` holds the characters that were read, the last first. -/
def decodeFrom (encoding : Encoding) (length : Nat) :
    (skip position : Nat) → (done : List Char) → List UInt8 → Except DecodeFault (List Char)
  | _, _, done, [] => .ok done.reverse
  | skip + 1, position, done, _ :: rest =>
    decodeFrom encoding length skip (position + 1) done rest
  | 0, position, done, b :: rest =>
    match encoding.next b rest with
    | .ok (c, size) => decodeFrom encoding length (size - 1) (position + 1) (c :: done) rest
    | .error (.wrong count reason) =>
      .error ⟨encoding.name, b, position, position + count, reason⟩
    | .error (.cutOff reason) => .error ⟨encoding.name, b, position, length, reason⟩

def decode (encoding : Encoding) (bytes : List UInt8) : Except DecodeFault String :=
  (decodeFrom encoding bytes.length 0 0 [] bytes).map String.ofList

/-- Decodes with the first encoding that can; otherwise the fault is that of the last
one, and there is none when there was nothing to try. -/
def decodeFirst (encodings : List Encoding) (bytes : List UInt8) :
    Except (Option DecodeFault) String :=
  encodings.foldl
    (fun result encoding =>
      match result with
      | .ok text => .ok text
      | .error _ => (encoding.decode bytes).mapError some) (.error none)

/-! ## Encodings of single bytes -/

def latin1 : Encoding where
  name := "latin-1"
  next b _ := .ok (Char.ofNat b.toNat, 1)

def ascii : Encoding where
  name := "ascii"
  next b _ :=
    if b.toNat < 128 then .ok (Char.ofNat b.toNat, 1)
    else .error (.wrong 1 "ordinal not in range(128)")

/-! ## UTF-8 -/

/-- Reads the bytes behind a first one: `missing` of them are still to come, the next one
within the given bounds, and `size` were read. -/
def continuation : (missing low high code size : Nat) → List UInt8 → Except Defect (Char × Nat)
  | 0, _, _, code, size, _ => .ok (Char.ofNat code, size)
  | _ + 1, _, _, _, _, [] => .error (.cutOff "unexpected end of data")
  | missing + 1, low, high, code, size, b :: rest =>
    if low ≤ b.toNat ∧ b.toNat ≤ high then
      continuation missing 0x80 0xbf (code * 64 + (b.toNat - 0x80)) (size + 1) rest
    else .error (.wrong size "invalid continuation byte")

/-- The second byte is bounded so that no character has a form that is too long and none
is a surrogate or beyond the last plane. -/
def utf8 : Encoding where
  name := "utf-8"
  next b rest :=
    let n := b.toNat
    if n < 0x80 then .ok (Char.ofNat n, 1)
    else if n < 0xc2 then .error (.wrong 1 "invalid start byte")
    else if n < 0xe0 then continuation 1 0x80 0xbf (n - 0xc0) 1 rest
    else if n = 0xe0 then continuation 2 0xa0 0xbf (n - 0xe0) 1 rest
    else if n = 0xed then continuation 2 0x80 0x9f (n - 0xe0) 1 rest
    else if n < 0xf0 then continuation 2 0x80 0xbf (n - 0xe0) 1 rest
    else if n = 0xf0 then continuation 3 0x90 0xbf (n - 0xf0) 1 rest
    else if n < 0xf4 then continuation 3 0x80 0xbf (n - 0xf0) 1 rest
    else if n = 0xf4 then continuation 3 0x80 0x8f (n - 0xf0) 1 rest
    else .error (.wrong 1 "invalid start byte")

end Encoding

end EntryPoints.Text
