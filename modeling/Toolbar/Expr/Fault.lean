/-
# `Toolbar.Expr.Fault` — why an expression is refused or has no value

Every fault of an expression has a cause and a place: a position `@n` in the source while it is
read, a path such as `$.left.name` while it is evaluated.  Besides, an operation on values may fail
with a fault of its own.
-/
import Toolbar.Fault
import Toolbar.Text.Quoted

namespace Toolbar.Expr

open Text

/-- What is wrong with an expression. -/
inductive Cause where
  | notText
  | unexpectedCharacter (c : Char)
  | expected (wanted found : String)
  | unexpectedToken (found : String)
  | memberNameMissing
  | unknownIdentifier (name : String)
  | tooDeep
  | notComparable (op : String)
  | notNumbers (op : String)
  | divisionByZero
  | notNegatable
  | memberOfNull (name : String)
  | hiddenMember (name : String)
  | unknownMethod (name : String)
deriving DecidableEq, Repr

/-- The kinds of causes. -/
inductive Cause.Kind where
  | schema
  | parse
  | depth
  | type
  | method
deriving DecidableEq, Repr

namespace Cause

def kind : Cause → Kind
  | notText => .schema
  | unexpectedCharacter _ | expected _ _ | unexpectedToken _ | memberNameMissing
  | unknownIdentifier _ => .parse
  | tooDeep => .depth
  | notComparable _ | notNumbers _ | divisionByZero | notNegatable | memberOfNull _
  | hiddenMember _ => .type
  | unknownMethod _ => .method

/-- The code that callers see. -/
def Kind.code : Kind → String
  | schema => "EXPR_SCHEMA_ERROR"
  | parse => "EXPR_PARSE_ERROR"
  | depth => "EXPR_DEPTH_EXCEEDED"
  | type => "EXPR_TYPE_ERROR"
  | method => "EXPR_METHOD_UNKNOWN"

/-- A token in a message; the end of the source has no text. -/
def shown (found : String) : String :=
  quoted (if found.isEmpty then "end" else found)

/-- The wording of a cause. -/
def message : Cause → String
  | notText => "expression must be string"
  | unexpectedCharacter c => "Unexpected character " ++ quoted (String.ofList [c])
  | expected wanted found => "Expected " ++ quoted wanted ++ ", found " ++ shown found
  | unexpectedToken found => "Unexpected token " ++ shown found
  | memberNameMissing => "Expected member name after '.'"
  | unknownIdentifier name => "Unknown identifier " ++ quoted name
  | tooDeep => "Depth limit exceeded"
  | notComparable op => "Cannot compare with " ++ op
  | notNumbers op => "Operator " ++ op ++ " requires numbers"
  | divisionByZero => "Division by zero"
  | notNegatable => "Unary minus requires a number"
  | memberOfNull name => "Cannot read " ++ quoted name ++ " of null"
  | hiddenMember name => "Member " ++ quoted name ++ " is not accessible"
  | unknownMethod name => "Unknown method " ++ quoted name

end Cause

/-- Why an expression has no value. -/
inductive Failure where
  | refused (cause : Cause) (path : String)
  | value (fault : Fault)
deriving DecidableEq, Repr

/-- A cause at a position of the source. -/
def Failure.at (cause : Cause) (position : Nat) : Failure :=
  .refused cause ("@" ++ toString position)

end Toolbar.Expr
