/-
# `Toolbar.Number.Decimal` — decimal texts of doubles

Three notations, all exact: the shortest decimal that reads back as the same double, a fixed number
of places, and a fixed number of significant digits.  Each asks a grid of decimals for the
neighbours of the exact value, so no result depends on an approximation.
-/
import Toolbar.Number.Binary64
import Toolbar.Text.Digits

namespace Toolbar

/-- A positive decimal `0.d₁d₂… * 10 ^ point`: `digits` has `count` digits, the first not zero. -/
structure Decimal where
  digits : Nat
  count : Nat
  point : Int
deriving DecidableEq, Repr

namespace Decimal

/-- The number of decimal digits of a natural number. -/
def length (n : Nat) : Nat :=
  (Text.decimalDigits n).length

/-- `num / den` in units of `10 ^ e`, as a quotient of naturals. -/
def unitsOf (num den : Nat) (e : Int) : Nat × Nat :=
  if 0 ≤ e then (num, den * Nat.pow 10 e.toNat) else (num * Nat.pow 10 (-e).toNat, den)

/-- The power `k` with `10 ^ (k - 1) ≤ num / den < 10 ^ k`, both positive. -/
def pointOf (num den : Nat) : Int :=
  let k : Int := (length num : Int) - (length den : Int)
  let (n, d) := unitsOf num den k
  if n < d then k else k + 1

/-- `num / den` to `count` significant digits, a half to the even digit. -/
def significant (num den count : Nat) : Decimal :=
  let k := pointOf num den
  let (n, d) := unitsOf num den (k - count)
  let q := Binary64.roundDiv n d
  if q = Nat.pow 10 count then ⟨Nat.pow 10 (count - 1), count, k + 1⟩ else ⟨q, count, k⟩

/-- The numbers that round to the double `m * 2 ^ e`: four times the ends of the interval in units
of `2 ^ e`, and whether the ends belong to it. -/
def roundingInterval (m : Nat) (e : Int) : Nat × Nat × Bool :=
  let low := if m = Nat.pow 2 52 ∧ e > Binary64.leastExponent then 4 * m - 1 else 4 * m - 2
  (low, 4 * m + 2, m % 2 == 0)

/-- Whether `q * 10 ^ s` rounds to the double `m * 2 ^ e`. -/
def readsBack (m : Nat) (e : Int) (q : Nat) (s : Int) : Bool :=
  let (low, high, closed) := roundingInterval m e
  let (num, den) := Binary64.unitsOf (4 * q * (if 0 ≤ s then Nat.pow 10 s.toNat else 1))
    (if 0 ≤ s then 1 else Nat.pow 10 (-s).toNat) e
  if closed then low * den ≤ num && num ≤ high * den else low * den < num && num < high * den

/-- The nearest decimal with `count` digits that reads back, when there is one. -/
def shortestAt? (m : Nat) (e : Int) (num den : Nat) (k : Int) (count : Nat) : Option Decimal :=
  let s := k - count
  let (n, d) := unitsOf num den s
  let q := n / d
  let below := readsBack m e q s && q ≠ 0
  let above := readsBack m e (q + 1) s
  let pick := if below && above then some (Binary64.roundDiv n d)
    else if below then some q else if above then some (q + 1) else none
  pick.map fun q => if q = Nat.pow 10 count then ⟨Nat.pow 10 (count - 1), count, k + 1⟩ else ⟨q, count, k⟩

/-- The first count of digits, from `count` on, at which some decimal reads back. -/
def shortestFrom (m : Nat) (e : Int) (num den : Nat) (k : Int) : Nat → Nat → Decimal
  | 0, count => significant num den count
  | tries + 1, count =>
      match shortestAt? m e num den k count with
      | some d => d
      | none => shortestFrom m e num den k tries (count + 1)

/-- The shortest decimal that reads back as the positive double `m * 2 ^ e`, and of those the
nearest; seventeen digits always suffice. -/
def shortest (m : Nat) (e : Int) : Decimal :=
  let (num, den) := Binary64.magnitude m e
  shortestFrom m e num den (pointOf num den) 16 1

/-- The digits with their trailing zeros removed, at least one left. -/
def trimZeros (ds : List Char) : List Char :=
  match (ds.reverse.dropWhile (· == '0')).reverse with
  | [] => ['0']
  | cs => cs

/-- An exponent with its sign and at least two digits. -/
def exponentText (e : Int) : List Char :=
  let ds := Text.decimalDigits e.natAbs
  'e' :: (if e < 0 then '-' else '+') :: (List.replicate (2 - ds.length) '0' ++ ds)

/-- Digits with the point after the first `k` of them, zeros filling both sides; a whole number
ends in `.0`. -/
def positional (ds : List Char) (k : Int) : List Char :=
  if k ≤ 0 then '0' :: '.' :: (List.replicate (-k).toNat '0' ++ ds)
  else
    let k := k.toNat
    let whole := ds.take k ++ List.replicate (k - ds.length) '0'
    let fraction := ds.drop k
    whole ++ '.' :: (if fraction.isEmpty then ['0'] else fraction)

/-- One digit before the point and the rest behind it, then the exponent. -/
def scientific (ds : List Char) (k : Int) : List Char :=
  match ds with
  | [] => exponentText (k - 1)
  | [d] => d :: exponentText (k - 1)
  | d :: rest => d :: '.' :: rest ++ exponentText (k - 1)

/-- The shortest text of a decimal: positional while the exponent of the leading digit lies from
`-4` to `15`, scientific outside. -/
def text (x : Decimal) : List Char :=
  let ds := trimZeros (Text.decimalDigits x.digits)
  if -4 < x.point && x.point ≤ 16 then positional ds x.point else scientific ds x.point

end Decimal

namespace Binary64

/-- A minus sign in front of the text of a negative number. -/
def signed (negative : Bool) (cs : List Char) : List Char :=
  if negative then '-' :: cs else cs

/-- The shortest text that reads back as the same double: `2.0`, `1e+16`, `-0.0`, `nan`, `inf`. -/
def shortestText : Binary64 → String
  | .nan _ => "nan"
  | .infinite s => String.ofList (signed s ['i', 'n', 'f'])
  | .finite s m e =>
      String.ofList (signed s (if m = 0 then ['0', '.', '0'] else (Decimal.shortest m e).text))

/-- The whole part and the digits behind the point of `num / den` to `places` places. -/
def fixedParts (num den places : Nat) : List Char × List Char :=
  let q := roundDiv (num * Nat.pow 10 places) den
  let ds := Text.decimalDigits q
  let ds := List.replicate (places + 1 - ds.length) '0' ++ ds
  (ds.take (ds.length - places), ds.drop (ds.length - places))

/-- A whole part and the places behind the point, which is left out when there are none. -/
def withPlaces (whole fraction : List Char) : List Char :=
  if fraction.isEmpty then whole else whole ++ '.' :: fraction

/-- Commas between the groups of three digits, counted from the end. -/
def groupThousands : List Char → List Char
  | [] => []
  | [d] => [d]
  | d :: e :: ds =>
      if (e :: ds).length % 3 = 0 then d :: ',' :: groupThousands (e :: ds)
      else d :: groupThousands (e :: ds)

/-- The text with `places` places behind the point; `group` changes the whole part. -/
def fixedText (group : List Char → List Char) (places : Nat) : Binary64 → List Char
  | .nan _ => ['n', 'a', 'n']
  | .infinite s => signed s ['i', 'n', 'f']
  | .finite s m e =>
      let (num, den) := magnitude m e
      let (whole, fraction) := fixedParts num den places
      signed s (withPlaces (group whole) fraction)

/-- The text with `count` significant digits, all of them written: positional while the exponent
of the leading digit is at least `-4` and below `count`, scientific outside.  The point is always
written, also when nothing follows it. -/
def significantText (count : Nat) : Binary64 → List Char
  | .nan _ => ['n', 'a', 'n']
  | .infinite s => signed s ['i', 'n', 'f']
  | .finite s m e =>
      if m = 0 then signed s ('0' :: '.' :: List.replicate (count - 1) '0')
      else
        let (num, den) := magnitude m e
        let x := Decimal.significant num den count
        let ds := Text.decimalDigits x.digits
        let exponent := x.point - 1
        signed s <|
          if -4 ≤ exponent && exponent < count then
            if exponent < 0 then
              '0' :: '.' :: (List.replicate (-exponent - 1).toNat '0' ++ ds)
            else ds.take (exponent + 1).toNat ++ '.' :: ds.drop (exponent + 1).toNat
          else ds.take 1 ++ '.' :: ds.drop 1 ++ Decimal.exponentText exponent

end Binary64

end Toolbar
