/-
# `Toolbar.Record.Lookup` — the reference that a record holds to another one

A lookup `name` of a record is two fields: the id of the other record under `_name_value`, and its
entity under the same key with an annotation.  A lookup has a target when both are texts that are
not empty.
-/
import Toolbar.Value.Basic

namespace Toolbar.Lookup

/-- The key of the other record's id. -/
def idKey (name : String) : String :=
  "_" ++ name ++ "_value"

/-- The key of the other record's entity. -/
def entityKey (name : String) : String :=
  idKey name ++ "@Microsoft.Dynamics.CRM.lookuplogicalname"

/-- The text of a field, when it is one and not empty. -/
def filled? (record : Value) (key : String) : Option String :=
  ((record.field key).text?).filter fun s => !s.isEmpty

/-- The id of the other record. -/
def id? (record : Value) (name : String) : Option String :=
  filled? record (idKey name)

/-- Entity and id of the other record. -/
def target? (record : Value) (name : String) : Option (String × String) := do
  let id ← filled? record (idKey name)
  let entity ← filled? record (entityKey name)
  return (entity, id)

end Toolbar.Lookup
