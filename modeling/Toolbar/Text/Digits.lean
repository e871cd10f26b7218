/-
# `Toolbar.Text.Digits` — the decimal digits of all scripts

Unicode lists its decimal digits in blocks of ten consecutive characters, zero first.  The table
holds the zeros of Unicode 14; the value of a digit is its distance from the zero of its block.
The ASCII digits are the first block, so `digitValue?` extends the ASCII reading of a digit.
-/

namespace Toolbar.Text

/-- The code point of the digit zero of every script, in ascending order. -/
def digitZeros : List Nat :=
  [0x30, 0x660, 0x6F0, 0x7C0, 0x966, 0x9E6, 0xA66, 0xAE6, 0xB66, 0xBE6, 0xC66, 0xCE6, 0xD66,
   0xDE6, 0xE50, 0xED0, 0xF20, 0x1040, 0x1090, 0x17E0, 0x1810, 0x1946, 0x19D0, 0x1A80, 0x1A90,
   0x1B50, 0x1BB0, 0x1C40, 0x1C50, 0xA620, 0xA8D0, 0xA900, 0xA9D0, 0xA9F0, 0xAA50, 0xABF0, 0xFF10,
   0x104A0, 0x10D30, 0x11066, 0x110F0, 0x11136, 0x111D0, 0x112F0, 0x11450, 0x114D0, 0x11650,
   0x116C0, 0x11730, 0x118E0, 0x11950, 0x11C50, 0x11D50, 0x11DA0, 0x16A60, 0x16AC0, 0x16B50,
   0x1D7CE, 0x1D7D8, 0x1D7E2, 0x1D7EC, 0x1D7F6, 0x1E140, 0x1E2F0, 0x1E950, 0x1FBF0]

/-- The zero of the block of ten that `n` lies in. -/
def blockZero? (n : Nat) : List Nat → Option Nat
  | [] => none
  | z :: zs => if z ≤ n && n < z + 10 then some z else blockZero? n zs

/-- The value of a decimal digit, and nothing for any other character. -/
def digitValue? (c : Char) : Option Nat :=
  (blockZero? c.toNat digitZeros).map (c.toNat - ·)

/-- A decimal digit of any script. -/
def isDigit (c : Char) : Bool :=
  (digitValue? c).isSome

/-- One of the ten ASCII digits. -/
def isAsciiDigit (c : Char) : Bool :=
  '0' ≤ c && c ≤ '9'

/-- The value of a hexadecimal digit. -/
def hexValue? (c : Char) : Option Nat :=
  if '0' ≤ c && c ≤ '9' then some (c.toNat - 0x30)
  else if 'a' ≤ c && c ≤ 'f' then some (c.toNat - 0x57)
  else if 'A' ≤ c && c ≤ 'F' then some (c.toNat - 0x37)
  else none

/-- The character of a digit below ten. -/
def digitChar (d : Nat) : Char :=
  Char.ofNat (0x30 + d % 10)

/-- The decimal digits of a number, the leading one first and `0` for zero. -/
def decimalDigits (n : Nat) : List Char :=
  (Nat.toDigits 10 n)

end Toolbar.Text
