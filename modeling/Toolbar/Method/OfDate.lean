/-
# `Toolbar.Method.OfDate` — methods of dates and stamps

A date without a time counts as its midnight, and a stamp without an offset as universal time where
an instant is asked for.  Month numbers begin at zero and the week at Sunday.
-/
import Toolbar.Method.Arguments
import Toolbar.Text.Case

namespace Toolbar.Method

open Text

def weekdayNames : List String := ["Mon", "Tue", "Wed", "Thu", "Fri", "Sat", "Sun"]

def monthNames : List String :=
  ["Jan", "Feb", "Mar", "Apr", "May", "Jun", "Jul", "Aug", "Sep", "Oct", "Nov", "Dec"]

/-- The ways in which places write a date. -/
inductive Locale where
  | enUS
  | enGB
  | frFR
  | deDE
  | svSE
  | iso
deriving DecidableEq, Repr

namespace Locale

/-- The locale that an argument names, in any case; American English for all others. -/
def ofArg : Value → Locale
  | .text s =>
      match String.ofList (lower s.toList) with
      | "en-gb" => enGB
      | "fr-fr" => frFR
      | "de-de" => deDE
      | "sv-se" => svSE
      | "iso" => iso
      | _ => enUS
  | _ => enUS

/-- Numbers with `sep` between them. -/
def numbers (sep : String) (parts : List (Nat × Nat)) : String :=
  joined sep (parts.map fun (width, n) => String.ofList (Stamp.padded width n))

/-- A date as the locale writes it. -/
def date (l : Locale) (d : Date) : String :=
  match l with
  | enUS => numbers "/" [(1, d.month), (1, d.day), (1, d.year)]
  | enGB | frFR => numbers "/" [(2, d.day), (2, d.month), (1, d.year)]
  | deDE => numbers "." [(1, d.day), (1, d.month), (1, d.year)]
  | svSE | iso => numbers "-" [(1, d.year), (2, d.month), (2, d.day)]

/-- A time of day as the locale writes it: twelve hours in American English, else twenty-four. -/
def time (l : Locale) (t : Stamp) : String :=
  match l with
  | enUS =>
      let hour := if t.hour % 12 = 0 then 12 else t.hour % 12
      numbers ":" [(1, hour), (2, t.minute), (2, t.second)]
        ++ (if t.hour < 12 then " AM" else " PM")
  | _ => String.ofList t.clockText

end Locale

/-- The milliseconds since the beginning of 1970: the seconds as a double, a thousand times that,
and of this the integer part. -/
def epochMillis (t : Stamp) : Except Fault Int := do
  let seconds ← Number.div (.int t.sinceEpoch) (.int 1000000)
  let millis ← Number.mul seconds (.int 1000)
  millis.truncate

/-- The instant in universal time to the millisecond. -/
def isoInstant (t : Stamp) : Except Fault String :=
  match t.toUniversal? with
  | some u => .ok u.display
  | none => .error .outOfRange

/-- Weekday, month, day and year. -/
def dateWords (d : Date) : String :=
  joined " " [(weekdayNames[d.weekday]?).getD "", (monthNames[d.month - 1]?).getD "",
    String.ofList (Stamp.padded 2 d.day), toString d.year]

/-- Date, time and offset in words and numbers. -/
def stampWords (t : Stamp) : String :=
  let offset := Stamp.offsetText [] (t.offset.getD 0)
  dateWords t.date ++ " " ++ String.ofList t.clockText ++ " GMT" ++ String.ofList offset

/-- The methods of a date with a time of day. -/
def ofStamp (t : Stamp) : List (String × (List Value → Result)) :=
  let number (n : Nat) : List Value → Result := noArgs (.ok (.int n))
  let text (run : Locale → String) : List Value → Result :=
    maybeTwoArgs .null .null fun locale _ => .ok (.text (run (Locale.ofArg locale)))
  [("getFullYear", number t.date.year),
    ("getMonth", number (t.date.month - 1)),
    ("getDate", number t.date.day),
    ("getDay", number ((t.date.weekday + 1) % 7)),
    ("getHours", number t.hour),
    ("getMinutes", number t.minute),
    ("getSeconds", number t.second),
    ("getMilliseconds", number (t.micro / 1000)),
    ("getTime", noArgs ((epochMillis t).map .int)),
    ("toISOString", noArgs ((isoInstant t).map .text)),
    ("toDateString", noArgs (.ok (.text (dateWords t.date)))),
    ("toLocaleDateString", text fun l => l.date t.date),
    ("toLocaleTimeString", text fun l => l.time t),
    ("toLocaleString", text fun l => l.date t.date ++ ", " ++ l.time t),
    ("toString", noArgs (.ok (.text (stampWords t)))),
    ("valueOf", noArgs ((epochMillis t).map .int))]

end Toolbar.Method
