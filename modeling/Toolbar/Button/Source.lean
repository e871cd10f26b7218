/-
# `Toolbar.Button.Source` — configurations from records

Configurations are records of an entity of their own, chosen by the name of the table that they are
for.  A vacant attribute stands for the field's default.  A position is the integer part of a number
or of a text that denotes one, and zero otherwise; an infinite one is a fault.
-/
import Toolbar.Button.Config
import Toolbar.Text.Search

namespace Toolbar.Button.Source

open Text

/-- The attributes of a configuration record, in the order in which they are asked for. -/
def attributes : List String :=
  ["theia_buttonlabel", "theia_url", "theia_buttonposition", "theia_buttontooltip",
    "theia_tablename", "theia_buttonicon", "theia_visibilityexpression", "theia_showaslink",
    "theia_actionscript"]

/-- The query for the active configurations of an entity, in the order of their positions; a further
condition may be added. -/
def query (entity condition : String) : String :=
  let escaped := String.ofList (replaceAll ['\''] ['\'', '\''] entity.toList)
  "?$select=" ++ joined "," attributes ++ "&$filter=theia_tablename eq '" ++ escaped
    ++ "' and statecode eq 0" ++ (if condition.isEmpty then "" else " and " ++ condition)
    ++ "&$orderby=theia_buttonposition asc"

/-- The position that an attribute holds. -/
def position : Value → Except Fault Int
  | .num n => n.truncate
  | .text s =>
      match Number.readReal? s with
      | none => .ok 0
      | some x =>
          match (Number.real x).truncate with
          | .ok i => .ok i
          | .error f => if f = .malformed then .ok 0 else .error f
  | _ => .ok 0

/-- A value, or another one when it is vacant. -/
def orElse (v other : Value) : Value :=
  if v.isVacant then other else v

/-- The configuration that a record holds. -/
def config (record : Fields) : Except Fault Config := do
  let read (key : String) : Value := (record.get? key).getD .null
  let p ← position (read "theia_buttonposition")
  return {
    label := orElse (read "theia_buttonlabel") (.text "")
    url := orElse (read "theia_url") (.text "")
    position := .int p
    tableName := orElse (read "theia_tablename") (.text "")
    showAsLink := .bool (!(read "theia_showaslink").isVacant)
    tooltip := orElse (read "theia_buttontooltip") .null
    icon := orElse (read "theia_buttonicon") .null
    visibility := orElse (read "theia_visibilityexpression") .null
    script := orElse (read "theia_actionscript") .null }

/-- The configuration that a value holds, which must be a record. -/
def ofValue (v : Value) : Except Fault Config :=
  match v with
  | .map fields => config fields
  | _ => .error .noRecord

/-- The configurations that are records among the items of a list. -/
def configs : List Value → Except Fault (List Config)
  | [] => .ok []
  | .map fields :: rest => do
      let c ← config fields
      let cs ← configs rest
      return c :: cs
  | _ :: rest => configs rest

/-- The items of a collection: those of a list; a text or a map has no records among its items. -/
def items : Value → Except Fault (List Value)
  | .list vs => .ok vs
  | .text _ | .map _ => .ok []
  | v => if v.isVacant then .ok [] else .error .unsuitable

/-- The configurations in the answer to a query. -/
def ofAnswer (answer : Value) : Except Fault (List Config) :=
  match answer with
  | .map fields => do
      let vs ← items ((Fields.get? "entities" fields).getD .null)
      configs vs
  | _ => .error .noRecord

end Toolbar.Button.Source
