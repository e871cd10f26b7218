/-
# `Toolbar.Number.Basic` — integers and doubles as one kind of number

Integers are unbounded and exact.  A double and an integer compare by value; arithmetic that meets
a double is done on doubles, and an integer too large for a double is then a fault.
-/
import Toolbar.Fault
import Toolbar.Number.Decimal
import Toolbar.Number.Reading

namespace Toolbar

/-- A number: an integer or a double. -/
inductive Number where
  | int (i : Int)
  | real (x : Binary64)
deriving DecidableEq, Repr

namespace Number

/-- The order of two numbers by value; a NaN has none. -/
def compare? : Number → Number → Option Ordering
  | int i, int j => some (compare i j)
  | int i, real y => (y.compareInt? i).map Ordering.swap
  | real x, int j => x.compareInt? j
  | real x, real y => x.compare? y

def equals (a b : Number) : Bool :=
  compare? a b == some .eq

/-- Whether two numbers are the same part of a list or map: they are equal, or NaNs of one
payload. -/
def same (a b : Number) : Bool :=
  match a, b with
  | real (.nan p), real (.nan q) => p == q
  | _, _ => equals a b

def isZero : Number → Bool
  | int i => i == 0
  | real x => x.isZero

def isNaN : Number → Bool
  | int _ => false
  | real x => x.isNaN

/-- The number as a double. -/
def toReal : Number → Except Fault Binary64
  | int i => match Binary64.ofInt? i with
      | some x => .ok x
      | none => .error .outOfRange
  | real x => .ok x

/-- The integer part. -/
def truncate : Number → Except Fault Int
  | int i => .ok i
  | real x => match x.truncate? with
      | some i => .ok i
      | none => .error (if x.isNaN then .malformed else .outOfRange)

/-- The text of an integer, unless it has too many digits. -/
def intText? (i : Int) : Option String :=
  let ds := Text.decimalDigits i.natAbs
  if ds.length > digitLimit then none else some (String.ofList (Binary64.signed (i < 0) ds))

/-- The text of a number with the kind kept visible: a double always has a point or an
exponent. -/
def text? : Number → Option String
  | int i => intText? i
  | real x => some x.shortestText

/-- The text of a number as a reader of the bar sees it: a whole double is written as an integer. -/
def display? : Number → Option String
  | int i => intText? i
  | real (.nan _) => some "NaN"
  | real (.infinite negative) => some (if negative then "-Infinity" else "Infinity")
  | real x =>
      if x.isInteger then (x.truncate?).bind intText? else some x.shortestText

def neg : Number → Number
  | int i => int (-i)
  | real x => real x.neg

/-- An operation that is exact on two integers and done on doubles otherwise. -/
def arith (exact : Int → Int → Int) (rounded : Binary64 → Binary64 → Binary64)
    (a b : Number) : Except Fault Number :=
  match a, b with
  | int i, int j => .ok (int (exact i j))
  | _, _ => do
      let x ← a.toReal
      let y ← b.toReal
      return real (rounded x y)

def add : Number → Number → Except Fault Number := arith (· + ·) Binary64.add
def sub : Number → Number → Except Fault Number := arith (· - ·) Binary64.sub
def mul : Number → Number → Except Fault Number := arith (· * ·) Binary64.mul

/-- The product with a count. -/
def scale (n : Number) (count : Nat) : Number :=
  match n with
  | int i => int (i * count)
  | real x => real (x.mul (Binary64.ofRatio false count 1))

/-- The quotient by a number other than zero, always a double; that of two integers is rounded
once. -/
def div (a b : Number) : Except Fault Number :=
  match a, b with
  | int i, int j =>
      match Binary64.ofRatio ((i < 0) != (j < 0)) i.natAbs j.natAbs with
      | .infinite _ => .error .outOfRange
      | x => .ok (real x)
  | _, _ => do
      let x ← a.toReal
      let y ← b.toReal
      return real (x.div y)

/-- The remainder by a number other than zero with the sign of the dividend, always a double; an
infinite dividend has none. -/
def rem (a b : Number) : Except Fault Number := do
  let x ← a.toReal
  let y ← b.toReal
  if x.isInfinite && !y.isNaN then .error .malformed else return real (x.rem y)

end Number

end Toolbar
