/-
# `Toolbar.Expr.Eval` — the value of an expression

Fields are looked up in the data collected for the expression, and attributes are read as the
surroundings read them.  A chain of members and calls that
begins at a field whose value is null is null itself, and none of its arguments is evaluated; a null
anywhere else in a chain is a fault.  Truth values count as numbers where a number is wanted, and so
do texts that denote one.
-/
import Toolbar.Expr.Basic
import Toolbar.Expr.Parser
import Toolbar.Method.Call
import Toolbar.Value.Surroundings

namespace Toolbar.Expr

open Text

/-- What the names of an expression stand for. -/
structure Scope extends Surroundings where
  data : Fields := []
  record : Fields := []

namespace Scope

/-- The value of a root. -/
def root (s : Scope) : Root → Value
  | .data => .map s.data
  | .record => .map s.record
  | .context => s.context

/-- The value of a field; null when it was not collected. -/
def field (s : Scope) (path : String) : Value :=
  (s.data.get? path).getD .null

end Scope

/-- The number that a value stands for in an operation. -/
def number? : Value → Option Number
  | .num n => some n
  | .bool b => some (.int (if b then 1 else 0))
  | .text s =>
      let cs := trim s.toList
      if cs.isEmpty then some (.int 0) else (Number.readReal? (String.ofList cs)).map .real
  | _ => none

/-- Equality without conversion: a number equals a number, and otherwise only values of one kind are
equal. -/
def strictEquals (a b : Value) : Bool :=
  match a, b with
  | .null, .null => true
  | .num m, .num n => m.equals n
  | .bool a, .bool b => a == b
  | .text a, .text b => a == b
  | .date _, .date _ | .stamp _, .stamp _ | .list _, .list _ | .map _, .map _
  | .routine _, .routine _ | .object _, .object _ => a.equals b
  | _, _ => false

/-- Two values as numbers are equal; two that are no numbers count as equal. -/
def numberEquals (a b : Value) : Bool :=
  match number? a, number? b with
  | some m, some n => m.equals n
  | none, none => true
  | _, _ => false

/-- Equality with conversion: a text and a number, or a truth value and anything but null, are equal
when their numbers are. -/
def looseEquals (a b : Value) : Bool :=
  match a, b with
  | .null, .null => true
  | .null, _ => false
  | _, .null => false
  | .text _, .num _ | .num _, .text _ =>
      match number? a, number? b with
      | some m, some n => m.equals n
      | _, _ => false
  | .bool _, _ | _, .bool _ => numberEquals a b
  | _, _ => strictEquals a b

/-- Whether a comparison holds of two values in a given order. -/
def Comparison.holds : Comparison → Ordering → Bool
  | .lt, o => o == .lt
  | .le, o => o != .gt
  | .gt, o => o == .gt
  | .ge, o => o != .lt

/-- The comparison of two values: texts by code points, dates by the calendar, all others as
numbers.  A comparison with null or NaN does not hold. -/
def compareValues (op : Comparison) (a b : Value) (path : String) : Except Failure Value :=
  match a, b with
  | .null, _ => .ok (.bool false)
  | _, .null => .ok (.bool false)
  | .text s, .text t => .ok (.bool (op.holds (compare s t)))
  | .date d, .date e => .ok (.bool (op.holds (compare d.ordinal e.ordinal)))
  | .stamp s, .stamp t =>
      match s.compare? t with
      | some o => .ok (.bool (op.holds o))
      | none => .error (.value .unsuitable)
  | .date _, .stamp _ | .stamp _, .date _ => .error (.value .unsuitable)
  | _, _ =>
      match number? a, number? b with
      | some m, some n => .ok (.bool ((m.compare? n).any op.holds))
      | _, _ => .error (.refused (.notComparable op.text) path)

/-- Lifts a fault of an operation on values. -/
def lift {α : Type} (r : Except Fault α) : Except Failure α :=
  r.mapError .value

/-- The milliseconds from one stamp to another as a double. -/
def elapsed (a b : Stamp) : Except Fault Number := do
  if a.offset.isSome == b.offset.isSome then
    let seconds ← Number.div (.int (a.instant - b.instant)) (.int 1000000)
    Number.mul seconds (.int 1000)
  else .error .unsuitable

/-- An operation on numbers. -/
def calculate (op : Arithmetic) (m n : Number) (path : String) : Except Failure Value :=
  match op with
  | .add => lift ((m.add n).map .num)
  | .sub => lift ((m.sub n).map .num)
  | .mul => lift ((m.mul n).map .num)
  | .div =>
      if n.isZero then .error (.refused .divisionByZero path) else lift ((m.div n).map .num)
  | .rem =>
      if n.isZero then .error (.refused .divisionByZero path) else lift ((m.rem n).map .num)

/-- An operation on two values as numbers. -/
def onNumbers (op : Arithmetic) (a b : Value) (path : String) : Except Failure Value :=
  match number? a, number? b with
  | some m, some n => calculate op m n path
  | _, _ => .error (.refused (.notNumbers op.text) path)

/-- An arithmetic operation: `+` joins displays when a text takes part, `-` gives the time between
two stamps, and all else is done on numbers. -/
def arithmetic (op : Arithmetic) (a b : Value) (path : String) : Except Failure Value :=
  match op, a, b with
  | .add, .text _, _ | .add, _, .text _ => lift do
      let s ← a.display
      let t ← b.display
      return .text (s ++ t)
  | .sub, .stamp s, .stamp t => lift ((elapsed s t).map .num)
  | _, _, _ => onNumbers op a b path

/-- A member of a value: a field of a map, or an attribute of another value, whose name must not
begin with an underscore. -/
def readMember (s : Scope) (target : Value) (name path : String) : Except Failure Value :=
  match target with
  | .map fields => .ok ((Fields.get? name fields).getD .null)
  | .null => .error (.refused (.memberOfNull name) path)
  | v =>
      if startsWith ['_'] name.toList then .error (.refused (.hiddenMember name) path)
      else lift (s.attributeOf v name)

/-- A method of a value, called. -/
def callMethod (target : Value) (name : String) (args : List Value) (path : String) :
    Except Failure Value :=
  match Method.call? target name args with
  | some r => lift r
  | none => .error (.refused (.unknownMethod name) path)

mutual
/-- The value of an expression; none for a field that is null and for a chain that begins at
one. -/
def reach (s : Scope) : Expr → (path : String) → Except Failure (Option Value)
  | .literal v, _ => .ok (some v)
  | .field p, _ => .ok (if (s.field p).isNull then none else some (s.field p))
  | .root r, _ => .ok (some (s.root r))
  | .member target name, path => do
      match ← reach s target path with
      | none => return none
      | some v => return some (← readMember s v name (path ++ "." ++ name))
  | .call target name args, path => do
      match ← reach s target path with
      | none => return none
      | some v =>
          let args ← reachAll s args (path ++ "." ++ name ++ "()")
          return some (← callMethod v name args (path ++ "." ++ name))
  | .unary op operand, path => do
      let v := (← reach s operand path).getD .null
      match op with
      | .not => return some (.bool (!v.truthy))
      | .neg =>
          match number? v with
          | some n => return some (.num n.neg)
          | none => .error (.refused .notNegatable path)
  | .binary left op right, path => do
      let a := (← reach s left (path ++ ".left")).getD .null
      match op with
      | .and =>
          if a.truthy then return some ((← reach s right (path ++ ".right")).getD .null)
          else return some a
      | .or =>
          if a.truthy then return some a
          else return some ((← reach s right (path ++ ".right")).getD .null)
      | .strictEq => do
          let b := (← reach s right (path ++ ".right")).getD .null
          return some (.bool (strictEquals a b))
      | .strictNe => do
          let b := (← reach s right (path ++ ".right")).getD .null
          return some (.bool (!strictEquals a b))
      | .looseEq => do
          let b := (← reach s right (path ++ ".right")).getD .null
          return some (.bool (looseEquals a b))
      | .looseNe => do
          let b := (← reach s right (path ++ ".right")).getD .null
          return some (.bool (!looseEquals a b))
      | .compare c => do
          let b := (← reach s right (path ++ ".right")).getD .null
          return some (← compareValues c a b path)
      | .arith o => do
          let b := (← reach s right (path ++ ".right")).getD .null
          return some (← arithmetic o a b path)
/-- The values of arguments, from the left. -/
def reachAll (s : Scope) : List Expr → (path : String) → Except Failure (List Value)
  | [], _ => .ok []
  | e :: es, path => do
      let v := (← reach s e path).getD .null
      let vs ← reachAll s es path
      return v :: vs
end

/-- The value of an expression at a path. -/
def eval (s : Scope) (e : Expr) (path : String) : Except Failure Value :=
  (reach s e path).map (·.getD .null)

/-- The truth of an expression given as a value; whatever fails is false. -/
def holds (s : Scope) (source : Value) : Bool :=
  match ofValue defaultDepth source with
  | .error _ => false
  | .ok e =>
      match eval s e "$" with
      | .ok v => v.truthy
      | .error _ => false

end Toolbar.Expr
