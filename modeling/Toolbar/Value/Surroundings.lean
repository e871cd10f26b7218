/-
# `Toolbar.Value.Surroundings` — what stands around the bar

An expression and a script are given a *context* by the page that the bar is on.  It may be any
value.  The keys of a map are read as they are; how the attributes of all other values are read is
not the bar's matter but that of the language that they come from, so it is a parameter.  An
attribute that a value does not have is null, and reading one may fail.
-/
import Toolbar.Fault
import Toolbar.Value.Basic

namespace Toolbar

/-- The context that a page gives, and the attributes of values that are no maps. -/
structure Surroundings where
  context : Value := .null
  attributeOf : Value → String → Except Fault Value := fun _ _ => .ok .null

namespace Surroundings

/-- What stands under a name in a value: a key of a map, an attribute of another value.  Null has
nothing under any name. -/
def part (around : Surroundings) (v : Value) (name : String) : Except Fault Value :=
  match v with
  | .map fields => .ok ((Fields.get? name fields).getD .null)
  | .null => .ok .null
  | v => around.attributeOf v name

end Surroundings

end Toolbar
