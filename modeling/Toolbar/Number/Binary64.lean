/-
# `Toolbar.Number.Binary64` — double-precision numbers with exact arithmetic

A finite double is a sign, a significand and a power of two.  Every operation computes the exact
result over the natural numbers and rounds once, to the nearest double and to the even significand
on a tie, so a statement about a result is a statement about integers.  Finite doubles are kept in
one form: the significand is below `2 ^ 53`, the exponent at least `-1074`, and the significand is
at least `2 ^ 52` unless the exponent is `-1074`.

A NaN carries a payload, which tells the NaNs that were read from different places apart.  As a
number no NaN equals any other, nor itself; the payload matters only where a NaN is part of
something larger.  Every operation that has no result gives the NaN of payload zero.
-/

namespace Toolbar

/-- A double: a finite one has the value `± significand * 2 ^ exponent`. -/
inductive Binary64 where
  | finite (negative : Bool) (significand : Nat) (exponent : Int)
  | infinite (negative : Bool)
  | nan (payload : Nat)
deriving DecidableEq, Repr

namespace Binary64

/-- The exponent of the last place of a subnormal double. -/
def leastExponent : Int := -1074

/-- The exponent of the last place of the greatest finite double. -/
def greatestExponent : Int := 971

def zero (negative : Bool) : Binary64 :=
  .finite negative 0 leastExponent

instance : Inhabited Binary64 := ⟨zero false⟩

/-- What an operation without a result gives. -/
def undefined : Binary64 := .nan 0

/-- `num / den` rounded to an integer, a half to the even neighbour. -/
def roundDiv (num den : Nat) : Nat :=
  let q := num / den
  let r := num % den
  if 2 * r > den || (2 * r == den && q % 2 == 1) then q + 1 else q

/-- `num / den` in units of `2 ^ e`, as a quotient of naturals. -/
def unitsOf (num den : Nat) (e : Int) : Nat × Nat :=
  if 0 ≤ e then (num, den * Nat.pow 2 e.toNat) else (num * Nat.pow 2 (-e).toNat, den)

/-- The exponent of the leading binary digit of `num / den`, both positive. -/
def leadingExponent (num den : Nat) : Int :=
  let k : Int := (num.log2 : Int) - (den.log2 : Int)
  let (n, d) := unitsOf num den k
  if n < d then k - 1 else k

/-- The double nearest to `± num / den`, with `den` positive. -/
def ofRatio (negative : Bool) (num den : Nat) : Binary64 :=
  if num = 0 then zero negative
  else
    let e := max (leadingExponent num den - 52) leastExponent
    let (n, d) := unitsOf num den e
    let m := roundDiv n d
    if m = Nat.pow 2 53 then
      if e + 1 > greatestExponent then .infinite negative else .finite negative (Nat.pow 2 52) (e + 1)
    else if e > greatestExponent then .infinite negative
    else .finite negative m e

/-- The double nearest to `± m * 2 ^ e`. -/
def ofScaled (negative : Bool) (m : Nat) (e : Int) : Binary64 :=
  if 0 ≤ e then ofRatio negative (m * Nat.pow 2 e.toNat) 1
  else ofRatio negative m (Nat.pow 2 (-e).toNat)

/-- The double nearest to an integer; beyond the greatest double there is none. -/
def ofInt? (i : Int) : Option Binary64 :=
  match ofRatio (i < 0) i.natAbs 1 with
  | .infinite _ => none
  | x => some x

/-- The double nearest to `± digits * 10 ^ exponent`, where `digits` has `count` digits.  An
exponent far outside the range of doubles is decided by size alone. -/
def ofDecimal (negative : Bool) (digits count : Nat) (exponent : Int) : Binary64 :=
  if digits = 0 then zero negative
  else if (count : Int) + exponent < -400 then zero negative
  else if exponent > 400 then .infinite negative
  else if 0 ≤ exponent then ofRatio negative (digits * Nat.pow 10 exponent.toNat) 1
  else ofRatio negative digits (Nat.pow 10 (-exponent).toNat)

def isZero : Binary64 → Bool
  | .finite _ m _ => m == 0
  | _ => false

def isNaN : Binary64 → Bool
  | .nan _ => true
  | _ => false

def isInfinite : Binary64 → Bool
  | .infinite _ => true
  | _ => false

/-- The magnitude of `m * 2 ^ e` as a quotient of naturals. -/
def magnitude (m : Nat) (e : Int) : Nat × Nat :=
  if 0 ≤ e then (m * Nat.pow 2 e.toNat, 1) else (m, Nat.pow 2 (-e).toNat)

/-- A finite double without a fraction. -/
def isInteger : Binary64 → Bool
  | .finite _ m e => let (n, d) := magnitude m e; n % d == 0
  | _ => false

/-- The integer part of a finite double, nothing for the others. -/
def truncate? : Binary64 → Option Int
  | .finite s m e =>
      let (n, d) := magnitude m e
      let q : Int := ((n / d : Nat) : Int)
      some (if s then -q else q)
  | _ => none

def neg : Binary64 → Binary64
  | .finite s m e => .finite (!s) m e
  | .infinite s => .infinite (!s)
  | .nan _ => undefined

/-- `± m * 2 ^ (e - base)` as an integer, for `base ≤ e`. -/
def steps (s : Bool) (m : Nat) (e base : Int) : Int :=
  let n : Int := ((m * Nat.pow 2 (e - base).toNat : Nat) : Int)
  if s then -n else n

/-- The sum; an exact zero is negative only when both summands are negative zeros or negative. -/
def add : Binary64 → Binary64 → Binary64
  | .nan _, _ => undefined
  | _, .nan _ => undefined
  | .infinite s, .infinite t => if s == t then .infinite s else undefined
  | .infinite s, .finite _ _ _ => .infinite s
  | .finite _ _ _, .infinite t => .infinite t
  | .finite s m e, .finite t n f =>
      let base := min e f
      let sum := steps s m e base + steps t n f base
      if sum = 0 then zero (s && t) else ofScaled (sum < 0) sum.natAbs base

def sub (x y : Binary64) : Binary64 :=
  add x (neg y)

/-- The product. -/
def mul : Binary64 → Binary64 → Binary64
  | .nan _, _ => undefined
  | _, .nan _ => undefined
  | .infinite s, .infinite t => .infinite (s != t)
  | .infinite s, .finite t n _ => if n = 0 then undefined else .infinite (s != t)
  | .finite s m _, .infinite t => if m = 0 then undefined else .infinite (s != t)
  | .finite s m e, .finite t n f => ofScaled (s != t) (m * n) (e + f)

/-- The quotient; dividing a number other than zero by zero gives an infinity. -/
def div : Binary64 → Binary64 → Binary64
  | .nan _, _ => undefined
  | _, .nan _ => undefined
  | .infinite _, .infinite _ => undefined
  | .infinite s, .finite t _ _ => .infinite (s != t)
  | .finite s _ _, .infinite t => zero (s != t)
  | .finite s m e, .finite t n f =>
      if n = 0 then (if m = 0 then undefined else .infinite (s != t))
      else if 0 ≤ e - f then ofRatio (s != t) (m * Nat.pow 2 (e - f).toNat) n
      else ofRatio (s != t) m (n * Nat.pow 2 (f - e).toNat)

/-- The remainder with the sign of the dividend, exact, for a divisor that is not zero and a finite
dividend; an infinite divisor leaves the dividend. -/
def rem : Binary64 → Binary64 → Binary64
  | .finite s m e, .finite t n f =>
      let base := min e f
      let r := (steps s m e base).natAbs % (steps t n f base).natAbs
      if r = 0 then zero s else ofScaled s r base
  | .finite s m e, .infinite _ => .finite s m e
  | _, _ => undefined

/-- The order of two doubles by value; a NaN has none. -/
def compare? : Binary64 → Binary64 → Option Ordering
  | .nan _, _ => none
  | _, .nan _ => none
  | .infinite s, .infinite t =>
      some (if s == t then .eq else if s then .lt else .gt)
  | .infinite s, .finite _ _ _ => some (if s then .lt else .gt)
  | .finite _ _ _, .infinite t => some (if t then .gt else .lt)
  | .finite s m e, .finite t n f =>
      let base := min e f
      some (compare (steps s m e base) (steps t n f base))

/-- The order of a double and an integer by value. -/
def compareInt? : Binary64 → Int → Option Ordering
  | .nan _, _ => none
  | .infinite s, _ => some (if s then .lt else .gt)
  | .finite s m e, i =>
      let base := min e 0
      some (compare (steps s m e base) (i * Nat.pow 2 (-base).toNat))

end Binary64

end Toolbar
