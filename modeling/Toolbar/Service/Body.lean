/-
# `Toolbar.Service.Body` — the value that the bytes of a body denote

A value of the record format comes in one of five encodings.  A mark in front of it names the
encoding; without a mark the zeros among the first bytes show it, because a value begins with ASCII
characters.  Half of a pair of code units on its own stands for the replacement character, as it
does in the record format; whatever else breaks the rules of the encoding makes the body unreadable.
-/
import Toolbar.Value.Reader

namespace Toolbar.Service.Body

open Value.Reader (isHighUnit isLowUnit unitChar)

/-- How the code points of a text are written in bytes. -/
inductive Encoding where
  | utf8
  | utf16 (bigEndian : Bool)
  | utf32 (bigEndian : Bool)
deriving DecidableEq, Repr

/-- The marks that name an encoding; the longer ones come first. -/
def marks : List (List UInt8 × Encoding) :=
  [([0x00, 0x00, 0xFE, 0xFF], .utf32 true), ([0xFF, 0xFE, 0x00, 0x00], .utf32 false),
    ([0xFE, 0xFF], .utf16 true), ([0xFF, 0xFE], .utf16 false), ([0xEF, 0xBB, 0xBF], .utf8)]

/-- The encoding of bytes without a mark. -/
def unmarked : List UInt8 → Encoding
  | a :: b :: c :: d :: _ =>
      if a = 0 then (if b = 0 then .utf32 true else .utf16 true)
      else if b = 0 then (if c = 0 ∧ d = 0 then .utf32 false else .utf16 false)
      else .utf8
  | [a, b] => if a = 0 then .utf16 true else if b = 0 then .utf16 false else .utf8
  | _ => .utf8

/-- The encoding of bytes, and the bytes behind the mark. -/
def detect (bytes : List UInt8) : Encoding × List UInt8 :=
  match marks.find? fun entry => entry.1.isPrefixOf bytes with
  | some (mark, encoding) => (encoding, bytes.drop mark.length)
  | none => (unmarked bytes, bytes)

/-- The first byte of a code point: its share of the value, the count of bytes to come, and the
least value that needs so many. -/
def lead? (b : Nat) : Option (Nat × Nat × Nat) :=
  if b < 0x80 then some (b, 0, 0)
  else if b < 0xC0 then none
  else if b < 0xE0 then some (b - 0xC0, 1, 0x80)
  else if b < 0xF0 then some (b - 0xE0, 2, 0x800)
  else if b < 0xF8 then some (b - 0xF0, 3, 0x10000)
  else none

/-- Every code point lies below. -/
def codeLimit : Nat := 0x110000

/-- The code points of bytes in UTF-8, when `missing` bytes of the first one are still to come. -/
def utf8Codes (missing value least : Nat) : List UInt8 → Option (List Nat)
  | [] => if missing = 0 then some [] else none
  | b :: bs =>
      if missing = 0 then
        match lead? b.toNat with
        | none => none
        | some (v, 0, _) => (utf8Codes 0 0 0 bs).map (v :: ·)
        | some (v, k + 1, least) => utf8Codes (k + 1) v least bs
      else if b.toNat / 0x40 = 2 then
        let v := value * 0x40 + b.toNat % 0x40
        if 1 < missing then utf8Codes (missing - 1) v least bs
        else if least ≤ v ∧ v < codeLimit then (utf8Codes 0 0 0 bs).map (v :: ·)
        else none
      else none

/-- The number in two bytes. -/
def unit (bigEndian : Bool) (a b : UInt8) : Nat :=
  if bigEndian then a.toNat * 0x100 + b.toNat else b.toNat * 0x100 + a.toNat

/-- The code units of bytes in UTF-16. -/
def utf16Units (bigEndian : Bool) : List UInt8 → Option (List Nat)
  | [] => some []
  | [_] => none
  | a :: b :: bs => (utf16Units bigEndian bs).map (unit bigEndian a b :: ·)

/-- Two code units that are a pair are one code point. -/
def joinPairs : List Nat → List Nat
  | [] => []
  | [u] => [u]
  | u :: v :: us =>
      if isHighUnit u && isLowUnit v then
        (0x10000 + (u - 0xD800) * 0x400 + (v - 0xDC00)) :: joinPairs us
      else u :: joinPairs (v :: us)

/-- The code points of bytes in UTF-32. -/
def utf32Codes (bigEndian : Bool) : List UInt8 → Option (List Nat)
  | [] => some []
  | a :: b :: c :: d :: bs =>
      let high := if bigEndian then unit true a b else unit false c d
      let low := if bigEndian then unit true c d else unit false a b
      let v := high * 0x10000 + low
      if v < codeLimit then (utf32Codes bigEndian bs).map (v :: ·) else none
  | _ => none

/-- The code points of bytes in an encoding. -/
def codes (bytes : List UInt8) : Encoding → Option (List Nat)
  | .utf8 => utf8Codes 0 0 0 bytes
  | .utf16 bigEndian => (utf16Units bigEndian bytes).map joinPairs
  | .utf32 bigEndian => utf32Codes bigEndian bytes

/-- The text that bytes denote. -/
def text? (bytes : List UInt8) : Option String :=
  let (encoding, bytes) := detect bytes
  (codes bytes encoding).map fun codes => String.ofList (codes.map unitChar)

/-- Why bytes denote no value. -/
inductive Unreadable where
  /-- They break the rules of their encoding. -/
  | noText
  /-- They denote a text that is no value. -/
  | noValue (reason : Value.Reader.Unreadable)
deriving DecidableEq, Repr

/-- The value that bytes denote. -/
def read (bytes : List UInt8) : Except Unreadable Value :=
  match text? bytes with
  | none => .error .noText
  | some s => (Value.Reader.read s).mapError .noValue

/-- A text in UTF-8. -/
def utf8 (s : String) : List UInt8 :=
  s.toList.flatMap String.utf8EncodeChar

end Toolbar.Service.Body
