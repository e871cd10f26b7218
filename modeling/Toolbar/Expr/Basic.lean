/-
# `Toolbar.Expr.Basic` — expressions over the fields of a record

An expression is built from literals, field references `{path}`, the three names `data`, `record`
and `context`, members, method calls and operators.  The operators fall into six levels, from `||`,
which binds least, to `*`, `/` and `%`.
-/
import Toolbar.Value.Basic

namespace Toolbar

/-- The names that an expression may use. -/
inductive Expr.Root where
  | data
  | record
  | context
deriving DecidableEq, Repr

inductive Expr.UnaryOp where
  | not
  | neg
deriving DecidableEq, Repr

inductive Expr.Comparison where
  | lt
  | le
  | gt
  | ge
deriving DecidableEq, Repr

inductive Expr.Arithmetic where
  | add
  | sub
  | mul
  | div
  | rem
deriving DecidableEq, Repr

inductive Expr.BinaryOp where
  | or
  | and
  | strictEq
  | strictNe
  | looseEq
  | looseNe
  | compare (c : Expr.Comparison)
  | arith (a : Expr.Arithmetic)
deriving DecidableEq, Repr

/-- An expression. -/
inductive Expr where
  | literal (v : Value)
  | field (path : String)
  | root (r : Expr.Root)
  | member (target : Expr) (name : String)
  | call (target : Expr) (name : String) (args : List Expr)
  | unary (op : Expr.UnaryOp) (operand : Expr)
  | binary (left : Expr) (op : Expr.BinaryOp) (right : Expr)

namespace Expr

instance : Inhabited Expr := ⟨.literal .null⟩

namespace Root

def text : Root → String
  | data => "data"
  | record => "record"
  | context => "context"

def all : List Root := [data, record, context]

/-- The root of that name. -/
def ofText? (s : String) : Option Root :=
  all.find? fun r => r.text == s

end Root

namespace UnaryOp

def text : UnaryOp → String
  | not => "!"
  | neg => "-"

def all : List UnaryOp := [not, neg]

end UnaryOp

def Comparison.text : Comparison → String
  | lt => "<"
  | le => "<="
  | gt => ">"
  | ge => ">="

def Arithmetic.text : Arithmetic → String
  | add => "+"
  | sub => "-"
  | mul => "*"
  | div => "/"
  | rem => "%"

namespace BinaryOp

def text : BinaryOp → String
  | or => "||"
  | and => "&&"
  | strictEq => "==="
  | strictNe => "!=="
  | looseEq => "=="
  | looseNe => "!="
  | compare c => c.text
  | arith a => a.text

/-- The operators of a level, level 0 binding least. -/
def atLevel : Nat → List BinaryOp
  | 0 => [or]
  | 1 => [and]
  | 2 => [strictEq, strictNe, looseEq, looseNe]
  | 3 => [compare .lt, compare .le, compare .gt, compare .ge]
  | 4 => [arith .add, arith .sub]
  | 5 => [arith .mul, arith .div, arith .rem]
  | _ => []

/-- The number of levels. -/
def levels : Nat := 6

end BinaryOp

end Expr

end Toolbar
