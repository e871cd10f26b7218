/-
# `Toolbar.StandIn.Attributes` — attributes of values

How the attributes of a value are read is the matter of the language that the page is written in.
This table stands in for it where a bar runs by itself.  It has the attributes of each kind of value
whose names do not begin with an underscore; most of them are operations, which have no attributes
in their turn.
-/
import Toolbar.StandIn.Reserved
import Toolbar.Value.Display
import Toolbar.Value.Surroundings

namespace Toolbar.StandIn

/-- The operations of a date. -/
def dateOperations : List String :=
  ["ctime", "fromisocalendar", "fromisoformat", "fromordinal", "fromtimestamp", "isocalendar",
   "isoformat", "isoweekday", "replace", "strftime", "timetuple", "today", "toordinal", "weekday"]

/-- The operations of a stamp beside those of a date. -/
def stampOperations : List String :=
  ["astimezone", "combine", "date", "dst", "now", "strptime", "time", "timestamp", "timetz",
   "tzname", "utcfromtimestamp", "utcnow", "utcoffset", "utctimetuple"]

/-- The names of the operations of a value, and of other attributes that are known by their text
alone. -/
def operations : Value → List String
  | .text _ => reservedByText
  | .list _ => reservedByList
  | .num (.int _) | .bool _ => reservedByInt
  | .num (.real _) => reservedByReal
  | .date _ => "resolution" :: dateOperations
  | .stamp _ => "resolution" :: (dateOperations ++ stampOperations)
  | .null | .map _ | .routine _ | .object _ => []

/-- An operation of a value, told apart from those of other values. -/
def operation (v : Value) (name : String) : Value :=
  .routine (name ++ " of " ++ (v.literal?).getD "")

/-- The first and the last day of the calendar. -/
def firstDay : Date := default

def lastDay : Date := ⟨9999, 12, 31, by decide⟩

/-- The last microsecond of the calendar. -/
def lastMoment : Stamp := ⟨lastDay, 23, 59, 59, 999999, none, by decide⟩

/-- What a value that is no map shows under a name, null for nothing. -/
def shownUnder (v : Value) (name : String) : Value :=
  match v, name with
  | .object attributes, _ => (Fields.get? name attributes).getD .null
  | .stamp t, "year" => .int t.date.year
  | .stamp t, "month" => .int t.date.month
  | .stamp t, "day" => .int t.date.day
  | .stamp t, "hour" => .int t.hour
  | .stamp t, "minute" => .int t.minute
  | .stamp t, "second" => .int t.second
  | .stamp t, "microsecond" => .int t.micro
  | .stamp _, "fold" => .int 0
  | .stamp t, "tzinfo" => (t.offset.map fun o => .routine (Stamp.offsetLiteral o)).getD .null
  | .stamp _, "min" => .stamp (.midnight firstDay)
  | .stamp _, "max" => .stamp lastMoment
  | .date d, "year" => .int d.year
  | .date d, "month" => .int d.month
  | .date d, "day" => .int d.day
  | .date _, "min" => .date firstDay
  | .date _, "max" => .date lastDay
  | .num n, "real" => .num n
  | .bool b, "real" => .int (if b then 1 else 0)
  | .num (.int _), "imag" => .int 0
  | .num (.real _), "imag" => .real (Binary64.zero false)
  | .bool _, "imag" => .int 0
  | .num (.int i), "numerator" => .int i
  | .bool b, "numerator" => .int (if b then 1 else 0)
  | .num (.int _), "denominator" => .int 1
  | .bool _, "denominator" => .int 1
  | _, _ => if (operations v).contains name then operation v name else .null

/-- A context with these attributes around it. -/
def around (context : Value) : Surroundings where
  context
  attributeOf := fun v name => .ok (shownUnder v name)

end Toolbar.StandIn
