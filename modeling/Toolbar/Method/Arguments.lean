/-
# `Toolbar.Method.Arguments` — what a method makes of its arguments

A method is a function of a value and a list of arguments.  The shapes below say how many arguments
a method takes; any other number is a fault, as is an argument that cannot be used.
-/
import Toolbar.Value.Display

namespace Toolbar.Method

/-- The result of a method. -/
abbrev Result := Except Fault Value

/-- The integer that an argument stands for: numbers are cut off to their integer part and texts are
read. -/
def intArg : Value → Except Fault Int
  | .num n => n.truncate
  | .bool b => .ok (if b then 1 else 0)
  | .text s => Number.readInt s
  | _ => .error .unsuitable

/-- Every count of characters is below this one. -/
def countLimit : Int := Nat.pow 2 63

/-- A method without arguments. -/
def noArgs (result : Result) : List Value → Result
  | [] => result
  | _ => .error .unsuitable

/-- A method with one argument. -/
def oneArg (run : Value → Result) : List Value → Result
  | [a] => run a
  | _ => .error .unsuitable

/-- A method with one argument that may be missing. -/
def maybeArg (missing : Value) (run : Value → Result) : List Value → Result
  | [] => run missing
  | [a] => run a
  | _ => .error .unsuitable

/-- A method with one argument and a second one that may be missing. -/
def oneMaybeArg (missing : Value) (run : Value → Value → Result) : List Value → Result
  | [a] => run a missing
  | [a, b] => run a b
  | _ => .error .unsuitable

/-- A method with two arguments that may be missing. -/
def maybeTwoArgs (first second : Value) (run : Value → Value → Result) : List Value → Result
  | [] => run first second
  | [a] => run a second
  | [a, b] => run a b
  | _ => .error .unsuitable

end Toolbar.Method
