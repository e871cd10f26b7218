/-
# `Toolbar.Calendar.Stamp` — a date with a time of day

A stamp has a date, a time of day to the microsecond, and possibly an offset from universal time in
seconds, strictly within a day.  Two stamps with offsets are ordered by the instants they name,
two without by what they show, and a stamp with an offset is not ordered with one without.
-/
import Toolbar.Calendar.Date
import Toolbar.Fault
import Toolbar.Text.Digits

namespace Toolbar

namespace Calendar

/-- An offset lies strictly within a day. -/
def IsOffset : Option Int → Prop
  | none => True
  | some o => -86400 < o ∧ o < 86400

instance (offset : Option Int) : Decidable (IsOffset offset) := by
  cases offset <;> unfold IsOffset <;> infer_instance

/-- The parts of a time of day and an offset are within their ranges. -/
def IsTime (hour minute second micro : Nat) (offset : Option Int) : Prop :=
  hour < 24 ∧ minute < 60 ∧ second < 60 ∧ micro < 1000000 ∧ IsOffset offset

instance (hour minute second micro : Nat) (offset : Option Int) :
    Decidable (IsTime hour minute second micro offset) := by
  unfold IsTime
  infer_instance

end Calendar

/-- A date with a time of day, and an offset from universal time in seconds or none. -/
structure Stamp where
  date : Date
  hour : Nat
  minute : Nat
  second : Nat
  micro : Nat
  offset : Option Int
  isTime : Calendar.IsTime hour minute second micro offset
deriving DecidableEq

namespace Stamp

open Calendar Text

instance : Inhabited Stamp := ⟨⟨default, 0, 0, 0, 0, none, by simp [IsTime, IsOffset]⟩⟩

/-- The stamp with the given parts, when they are within their ranges. -/
def of? (date : Date) (hour minute second micro : Nat) (offset : Option Int) : Option Stamp :=
  if h : IsTime hour minute second micro offset then
    some ⟨date, hour, minute, second, micro, offset, h⟩
  else none

/-- Midnight of a date, without an offset. -/
def midnight (d : Date) : Stamp :=
  ⟨d, 0, 0, 0, 0, none, by simp [IsTime, IsOffset]⟩

/-- The second within the day that a stamp shows. -/
def daySecond (t : Stamp) : Nat :=
  t.hour * 3600 + t.minute * 60 + t.second

/-- The seconds that a stamp shows, counted from midnight before the first day of the calendar. -/
def shownSeconds (t : Stamp) : Int :=
  (t.date.ordinal * 86400 + t.daySecond : Nat)

/-- The microseconds at which universal time shows the instant of the stamp; a stamp without an
offset is taken as universal time. -/
def instant (t : Stamp) : Int :=
  (t.shownSeconds - t.offset.getD 0) * 1000000 + t.micro

/-- The instant of midnight before 1 January 1970. -/
def epoch : Int :=
  719163 * 86400 * 1000000

/-- Microseconds since the beginning of 1970. -/
def sinceEpoch (t : Stamp) : Int :=
  t.instant - epoch

/-- The order of two stamps, when both or neither have an offset. -/
def compare? (a b : Stamp) : Option Ordering :=
  if a.offset.isSome == b.offset.isSome then some (compare a.instant b.instant) else none

/-- Two stamps are the same instant, or show the same without an offset. -/
def sameInstant (a b : Stamp) : Bool :=
  a.compare? b == some .eq

/-- The same instant with the offset zero; near the ends of the calendar there is none. -/
def toUniversal? (t : Stamp) : Option Stamp :=
  let s : Int := (t.daySecond : Int) - t.offset.getD 0
  let days := Int.fdiv s 86400
  let rest := (Int.fmod s 86400).toNat
  (t.date.shift? days).bind fun d =>
    of? d (rest / 3600) (rest / 60 % 60) (rest % 60) t.micro (some 0)

/-- A number with at least `width` digits. -/
def padded (width n : Nat) : List Char :=
  let ds := decimalDigits n
  List.replicate (width - ds.length) '0' ++ ds

/-- A clock offset: sign, hours, minutes, and seconds when there are some. -/
def offsetText (separator : List Char) (o : Int) : List Char :=
  let n := o.natAbs
  (if o < 0 then '-' else '+') :: padded 2 (n / 3600) ++ separator ++ padded 2 (n / 60 % 60)
    ++ (if n % 60 = 0 then [] else separator ++ padded 2 (n % 60))

/-- Hours, minutes and seconds with colons. -/
def clockText (t : Stamp) : List Char :=
  padded 2 t.hour ++ ':' :: padded 2 t.minute ++ ':' :: padded 2 t.second

end Stamp

/-- A date with four digits for the year and two for month and day. -/
def Date.isoText (d : Date) : List Char :=
  Stamp.padded 4 d.year ++ '-' :: Stamp.padded 2 d.month ++ '-' :: Stamp.padded 2 d.day

namespace Stamp

/-- Date and time with `between` between them; the fraction is left out when it is zero. -/
def isoText (between : Char) (t : Stamp) : List Char :=
  t.date.isoText ++ between :: t.clockText
    ++ (if t.micro = 0 then [] else '.' :: padded 6 t.micro)
    ++ (match t.offset with
        | some o => offsetText [':'] o
        | none => [])

/-- Date and time to the millisecond; the offset zero is written `Z`. -/
def milliText (t : Stamp) : List Char :=
  t.date.isoText ++ 'T' :: t.clockText ++ '.' :: padded 3 (t.micro / 1000)
    ++ (match t.offset with
        | some o => if o = 0 then ['Z'] else offsetText [':'] o
        | none => [])

end Stamp

end Toolbar
