/-
# `Toolbar.Button.Config` — the configuration of a button

A configuration has nine fields, each of which may hold any value.  Its hash is that of the
canonical text of the list of configurations, so two lists have one hash when they agree in every
field.
-/
import Toolbar.Value.Canonical
import Toolbar.Value.Digest

namespace Toolbar.Button

/-- The configuration of a button. -/
structure Config where
  label : Value
  url : Value := .text ""
  position : Value := .int 0
  tableName : Value := .text ""
  showAsLink : Value := .bool false
  tooltip : Value := .null
  icon : Value := .null
  visibility : Value := .null
  script : Value := .null

namespace Config

/-- The fields with their keys. -/
def fields (c : Config) : Fields :=
  [("label", c.label), ("url", c.url), ("position", c.position), ("table_name", c.tableName),
    ("show_as_link", c.showAsLink), ("tooltip", c.tooltip), ("icon", c.icon),
    ("visibility_expression", c.visibility), ("action_script", c.script)]

/-- The configuration as a map. -/
def toValue (c : Config) : Value :=
  .map c.fields

end Config

/-- The hash of a list of values. -/
def hashOf (values : List Value) : Except Fault String := do
  let text ← (Value.list values).canonical
  return "sha256:" ++ Digest.sha256 text

/-- The hash of a list of configurations. -/
def Config.hash (configs : List Config) : Except Fault String :=
  hashOf (configs.map Config.toValue)

/-- A configuration with its texts resolved, to be shown. -/
structure Shown where
  config : Config

namespace Shown

/-- The fields with their keys. -/
def fields (b : Shown) : Fields :=
  b.config.fields ++ [("is_visible", .bool true)]

def toValue (b : Shown) : Value :=
  .map b.fields

end Shown

end Toolbar.Button
