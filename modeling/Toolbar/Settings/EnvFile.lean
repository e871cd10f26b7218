/-
# `Toolbar.Settings.EnvFile` — variables from a file

Each line `NAME=value` of the file sets a variable that is not set yet; blanks around name and value
and quotes around the value are left out, and blank lines, lines that begin with `#` and lines
without `=` are passed over.  So a variable of the environment keeps its value, and of several lines
for one name the first counts.
-/
import Toolbar.Settings.Basic
import Toolbar.Text.Search

namespace Toolbar.Settings.EnvFile

open Text

/-- A value without the quotes around it: double quotes first, then single ones. -/
def unquoted (cs : List Char) : List Char :=
  stripBy (· == '\'') (stripBy (· == '"') cs)

/-- The variable that a line sets. -/
def entry? (line : String) : Option (String × String) :=
  let cs := trim line.toList
  if cs.isEmpty || cs.head? == some '#' then none
  else
    match cutAt? '=' cs with
    | none => none
    | some (name, value) =>
        let name := trim name
        if name.isEmpty then none
        else some (String.ofList name, String.ofList (unquoted (trim value)))

/-- Whether a text can be part of an environment: it has no NUL character. -/
def isPlain (s : String) : Bool :=
  s.toList.all (·.toNat != 0)

/-- The environment with a variable that was not set before. -/
def add (env : Environment) (e : String × String) : Except Fault Environment :=
  if (env.get? e.1).isSome then .ok env
  else if isPlain e.1 && isPlain e.2 then .ok (env ++ [e])
  else .error .malformed

/-- The environment with the entries that set new variables, in order. -/
def addAll (env : Environment) : List (String × String) → Except Fault Environment
  | [] => .ok env
  | e :: es => do
      let env ← add env e
      addAll env es

/-- The environment with the variables of a file. -/
def load (env : Environment) (text : String) : Except Fault Environment :=
  addAll env ((lines text).filterMap entry?)

end Toolbar.Settings.EnvFile
