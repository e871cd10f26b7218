/-
# `Toolbar.Record.Id` — what names a record

A record is named by its entity and its id; the two make the key under which it is cached.  A form
for a record that is not stored yet has no id, or the one that consists of zeros.
-/

namespace Toolbar.Record

/-- The id of no record. -/
def emptyId : String := "00000000-0000-0000-0000-000000000000"

/-- Whether an id names no stored record. -/
def isNew (id : Option String) : Bool :=
  match id with
  | none => true
  | some s => s.isEmpty || s == emptyId

/-- The key of a record. -/
def key (entity id : String) : String :=
  entity ++ ":" ++ id

end Toolbar.Record
