/-
# `Toolbar.Calendar.Iso` — reading dates and times

A date is written `YYYY-MM-DD`, `YYYYMMDD`, or as a week with an optional weekday (`YYYY-Www-D`,
`YYYYWwwD`); digits are ASCII digits.  One character of any kind divides it from the time, which
has hours, then minutes and seconds with colons throughout or without any, then a fraction behind a
point, a comma, a third colon or nothing.  An offset begins at the first sign or `Z` of the time
and is written like a time.  A fraction is cut off after six digits; what stands between it and an
offset is passed over, but without an offset nothing may be left.
-/
import Toolbar.Calendar.Stamp

namespace Toolbar.Calendar.Iso

open Text

/-- The number in the next `count` characters, which are digits, and what follows. -/
def number? : (count : Nat) → (value : Nat) → List Char → Option (Nat × List Char)
  | 0, value, cs => some (value, cs)
  | _ + 1, _, [] => none
  | count + 1, value, c :: cs =>
      if isAsciiDigit c then number? count (10 * value + (c.toNat - 0x30)) cs else none

/-- What follows `c`, when the text begins with it. -/
def after? (c : Char) : List Char → Option (List Char)
  | [] => none
  | d :: cs => if c == d then some cs else none

/-- A week and a weekday, Monday when none is written. -/
def weekDate? (year : Nat) (separated : Bool) (cs : List Char) : Option Date := do
  let (week, cs) ← number? 2 0 cs
  match cs with
  | [] => Date.ofWeek? year week 1
  | _ =>
      let cs ← if separated then after? '-' cs else some cs
      let (weekday, _) ← number? 1 0 cs
      Date.ofWeek? year week weekday

/-- The date that a text denotes. -/
def readDate? (cs : List Char) : Option Date := do
  let (year, cs) ← number? 4 0 cs
  let separated := cs.head? == some '-'
  let cs := if separated then cs.drop 1 else cs
  match cs with
  | 'W' :: cs => weekDate? year separated cs
  | cs =>
      let (month, cs) ← number? 2 0 cs
      let cs ← if separated then after? '-' cs else some cs
      let (day, rest) ← number? 2 0 cs
      if rest.isEmpty then Date.of? year month day else none

/-- Where the date ends and the character between date and time stands. -/
def dateLength (cs : List Char) : Nat :=
  let digitAt (i : Nat) : Bool := (cs[i]?).any isAsciiDigit
  if cs.length = 7 then 7
  else if cs[4]? == some '-' then
    if cs[5]? == some 'W' then
      if cs[8]? == some '-' then (if 10 < cs.length && digitAt 10 then 8 else 10) else 8
    else 10
  else if cs[4]? == some 'W' then
    let digits := ((cs.drop 7).takeWhile isAsciiDigit).length
    if digits < 2 then 7 + digits else if (7 + digits) % 2 = 0 then 7 else 8
  else 8

/-- A time of day as it is read: its parts, and whether nothing was left over. -/
structure Clock where
  hour : Nat
  minute : Nat
  second : Nat
  micro : Nat
  clean : Bool

/-- A fraction of a second in microseconds, and whether only digits were left. -/
def fraction? (cs : List Char) : Option (Nat × Bool) := do
  let shown := min cs.length 6
  let (value, rest) ← number? shown 0 cs
  return (value * Nat.pow 10 (6 - shown), (rest.dropWhile isAsciiDigit).isEmpty)

/-- The parts from the one that `fields` counts down to; `separated` tells whether a colon follows
the hours. -/
def clockFrom? (separated : Bool) : (fields : Nat) → (parts : List Nat) → List Char → Option Clock
  | 0, parts, cs => do
      let (micro, clean) ← fraction? cs
      clock parts micro clean
  | fields + 1, parts, cs => do
      let (value, cs) ← number? 2 0 cs
      let parts := parts ++ [value]
      match cs with
      | [] => clock parts 0 true
      | [c] => if c.toNat < 0x80 then clock parts 0 false else none
      | c :: rest =>
          let separated := if fields = 2 then c == ':' else separated
          if separated && c == ':' then clockFrom? separated fields parts rest
          else if c == '.' || c == ',' then
            let (micro, clean) ← fraction? rest
            clock parts micro clean
          else if separated then none
          else clockFrom? separated fields parts (c :: rest)
where
  clock (parts : List Nat) (micro : Nat) (clean : Bool) : Option Clock :=
    match parts with
    | [h, m, s] => some ⟨h, m, s, micro, clean⟩
    | [h, m] => some ⟨h, m, 0, micro, clean⟩
    | [h] => some ⟨h, 0, 0, micro, clean⟩
    | _ => none

/-- Hours, minutes, seconds and a fraction. -/
def clock? (cs : List Char) : Option Clock :=
  clockFrom? true 3 [] cs

def isOffsetStart (c : Char) : Bool :=
  c == '+' || c == '-' || c == 'Z'

/-- The offset in seconds that the text from a sign or `Z` on denotes. -/
def offset? : List Char → Option Int
  | ['Z'] => some 0
  | '+' :: cs => do
      let c ← clock? cs
      if c.clean then return (c.hour * 3600 + c.minute * 60 + c.second : Nat) else none
  | '-' :: cs => do
      let c ← clock? cs
      if c.clean then return -((c.hour * 3600 + c.minute * 60 + c.second : Nat) : Int) else none
  | _ => none

/-- A time of day with an optional offset, on a date. -/
def timeOn? (d : Date) (cs : List Char) : Option Stamp := do
  let shown := cs.takeWhile (!isOffsetStart ·)
  let c ← clock? shown
  match cs.dropWhile (!isOffsetStart ·) with
  | [] => if c.clean then Stamp.of? d c.hour c.minute c.second c.micro none else none
  | rest =>
      let o ← offset? rest
      Stamp.of? d c.hour c.minute c.second c.micro (some o)

/-- The stamp that a text denotes; a date alone denotes its midnight. -/
def readStamp? (s : String) : Option Stamp := do
  let cs := s.toList
  let n := dateLength cs
  let d ← readDate? (cs.take n)
  match cs.drop (n + 1) with
  | [] => if (cs.drop n).all (·.toNat < 0x80) then Stamp.of? d 0 0 0 0 none else none
  | time => timeOn? d time

end Toolbar.Calendar.Iso
