/-
# `Toolbar.Method.Call` — calling a method by its name

Each kind of value has its own table of methods; null, maps, routines and objects have none.  A name
is *known* when some kind of value has a method of that name.
-/
import Toolbar.Method.OfDate
import Toolbar.Method.OfNumber
import Toolbar.Method.OfText

namespace Toolbar.Method

/-- The methods of a truth value. -/
def ofBool (b : Bool) : List (String × (List Value → Result)) :=
  [("toString", noArgs ((Value.bool b).display.map .text)), ("valueOf", noArgs (.ok (.bool b)))]

/-- The displays of the items with a separator between them; null is empty. -/
def join (items : List Value) (separator : Value) : Result := do
  let sep ← separator.plainText
  let texts ← items.mapM fun v => if v.isNull then pure "" else v.display
  return .text (Text.joined sep texts)

/-- The methods of a list. -/
def ofList (items : List Value) : List (String × (List Value → Result)) :=
  [("length", noArgs (.ok (.int items.length))),
    ("join", maybeArg (.text ",") (join items)),
    ("includes", oneArg fun v => .ok (.bool (items.any (v.equals ·))))]

/-- The methods of a value. -/
def table : Value → List (String × (List Value → Result))
  | .bool b => ofBool b
  | .num n => ofNumber n
  | .text s => ofText s
  | .date d => ofStamp (Stamp.midnight d)
  | .stamp t => ofStamp t
  | .list items => ofList items
  | .null | .map _ | .routine _ | .object _ => []

/-- The method of that name in a table. -/
def lookup (name : String) : List (String × (List Value → Result)) → Option (List Value → Result)
  | [] => none
  | (n, run) :: rest => if n == name then some run else lookup name rest

def has (v : Value) (name : String) : Bool :=
  (lookup name (table v)).isSome

/-- The result of the method of that name, when the value has one. -/
def call? (v : Value) (name : String) (args : List Value) : Option Result :=
  (lookup name (table v)).map (· args)

/-- The names of all methods of all kinds of values. -/
def knownNames : List String :=
  [Value.bool true, .int 0, .text "", .stamp default, .list []].flatMap fun v =>
    (table v).map (·.1)

/-- Whether some kind of value has a method of that name. -/
def isKnown (name : String) : Bool :=
  knownNames.contains name

end Toolbar.Method
