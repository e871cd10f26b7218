/-
# `Toolbar.Value.Display` — the texts of a value

A value has three texts.  Its *display* is what stands in a button: `null`, `true`, whole doubles
without a fraction, lists and maps as in the record format without blanks.  Its *plain text* keeps
the kind of a number visible and is what methods and markup use where a text is wanted: `None`,
`True`, `1.0`.  Its *literal* is the plain text with texts in quotation marks, and stands for the
members of lists and maps.  The only value without a text is an integer with too many digits.
-/
import Toolbar.Text.Quoted
import Toolbar.Text.Search
import Toolbar.Value.Basic

namespace Toolbar

open Text

/-- What stands for one character of a text in the record format. -/
def Text.recordEscape (c : Char) : List Char :=
  if c == '"' || c == '\\' then ['\\', c]
  else if c == '\n' then ['\\', 'n']
  else if c == '\r' then ['\\', 'r']
  else if c == '\t' then ['\\', 't']
  else if c.toNat == 0x08 then ['\\', 'b']
  else if c.toNat == 0x0C then ['\\', 'f']
  else if c.toNat < 0x20 then '\\' :: 'u' :: hexDigits 4 c.toNat
  else [c]

/-- A text in double quotes as the record format has it. -/
def Text.recordQuoted (s : String) : String :=
  String.ofList ('"' :: s.toList.flatMap recordEscape ++ ['"'])

/-- A date as year, month and day. -/
def Date.display (d : Date) : String :=
  String.ofList d.isoText

/-- A stamp to the millisecond. -/
def Stamp.display (t : Stamp) : String :=
  String.ofList t.milliText

/-- A stamp with all its digits and a blank between date and time. -/
def Stamp.plainText (t : Stamp) : String :=
  String.ofList (t.isoText ' ')

/-- The offset of a stamp as days and seconds, the seconds not negative. -/
def Stamp.offsetLiteral (o : Int) : String :=
  if o = 0 then "datetime.timezone.utc"
  else
    let days := Int.fdiv o 86400
    let seconds := Int.fmod o 86400
    let parts := (if days = 0 then [] else ["days=" ++ toString days])
      ++ (if seconds = 0 then [] else ["seconds=" ++ toString seconds])
    "datetime.timezone(datetime.timedelta(" ++ joined ", " parts ++ "))"

/-- A stamp by its parts; zero seconds are left out when nothing smaller follows. -/
def Stamp.literal (t : Stamp) : String :=
  let parts := [t.date.year, t.date.month, t.date.day, t.hour, t.minute]
  let parts := if t.micro ≠ 0 then parts ++ [t.second, t.micro]
    else if t.second ≠ 0 then parts ++ [t.second] else parts
  let texts := parts.map toString
  let texts := match t.offset with
    | some o => texts ++ ["tzinfo=" ++ offsetLiteral o]
    | none => texts
  "datetime.datetime(" ++ joined ", " texts ++ ")"

def Date.literal (d : Date) : String :=
  "datetime.date(" ++ joined ", " ([d.year, d.month, d.day].map toString) ++ ")"

namespace Value

mutual
/-- The text of a value among the members of a list or map. -/
def literal? : Value → Option String
  | .null => some "None"
  | .bool b => some (if b then "True" else "False")
  | .num n => n.text?
  | .text s => some (quoted s)
  | .date d => some d.literal
  | .stamp t => some t.literal
  | .list items => (literalItems? items).map fun ts => "[" ++ joined ", " ts ++ "]"
  | .map fields => (literalFields? fields).map fun ts => "\x7b" ++ joined ", " ts ++ "\x7d"
  | .routine name => some name
  | .object attributes => (literalAttributes? attributes).map fun ts =>
      "namespace(" ++ joined ", " ts ++ ")"
def literalItems? : List Value → Option (List String)
  | [] => some []
  | v :: vs => do
      let t ← literal? v
      let ts ← literalItems? vs
      return t :: ts
def literalFields? : List (String × Value) → Option (List String)
  | [] => some []
  | (k, v) :: fs => do
      let t ← literal? v
      let ts ← literalFields? fs
      return (quoted k ++ ": " ++ t) :: ts
def literalAttributes? : List (String × Value) → Option (List String)
  | [] => some []
  | (k, v) :: fs => do
      let t ← literal? v
      let ts ← literalAttributes? fs
      return (k ++ "=" ++ t) :: ts
end

mutual
/-- The text of a value inside a list or map of the record format. -/
def recordText? : Value → Option String
  | .null => some "null"
  | .bool b => some (if b then "true" else "false")
  | .num (.int i) => Number.intText? i
  | .num (.real (.nan _)) => some "NaN"
  | .num (.real (.infinite negative)) => some (if negative then "-Infinity" else "Infinity")
  | .num (.real x) => some x.shortestText
  | .text s => some (recordQuoted s)
  | .date d => some (recordQuoted d.display)
  | .stamp t => some (recordQuoted t.display)
  | .list items => (recordItems? items).map fun ts => "[" ++ joined "," ts ++ "]"
  | .map fields => (recordFields? fields).map fun ts => "\x7b" ++ joined "," ts ++ "\x7d"
  | .routine name => some (recordQuoted name)
  | .object attributes => (literal? (.object attributes)).map recordQuoted
/-- The texts of the items of a list. -/
def recordItems? : List Value → Option (List String)
  | [] => some []
  | v :: vs => do
      let t ← recordText? v
      let ts ← recordItems? vs
      return t :: ts
/-- The texts of the fields of a map. -/
def recordFields? : List (String × Value) → Option (List String)
  | [] => some []
  | (k, v) :: fs => do
      let t ← recordText? v
      let ts ← recordFields? fs
      return (recordQuoted k ++ ":" ++ t) :: ts
end

/-- The text of a value as a button shows it. -/
def display? : Value → Option String
  | .null => some "null"
  | .bool b => some (if b then "true" else "false")
  | .num n => n.display?
  | .text s => some s
  | .date d => some d.display
  | .stamp t => some t.display
  | .list items => recordText? (.list items)
  | .map fields => recordText? (.map fields)
  | .routine name => some name
  | .object attributes => literal? (.object attributes)

/-- The text of a value as a button shows it, or the fault that it has too many digits. -/
def display (v : Value) : Except Fault String :=
  match v.display? with
  | some s => .ok s
  | none => .error .tooManyDigits

/-- The text of a value where a text is wanted. -/
def plainText? : Value → Option String
  | .text s => some s
  | .date d => some d.display
  | .stamp t => some t.plainText
  | v => v.literal?

/-- The text of a value where a text is wanted, or the fault that it has too many digits. -/
def plainText (v : Value) : Except Fault String :=
  match v.plainText? with
  | some s => .ok s
  | none => .error .tooManyDigits

end Value

end Toolbar
