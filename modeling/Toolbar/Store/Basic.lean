/-
# `Toolbar.Store.Basic` — where records come from

A store holds the records of each entity, in the order in which they were added.  A key can be given
a fault or a fixed answer, which win over the records in that order.  Every request that is answered
is counted.

What a store hands out is a copy.  Scripts change records in place, so it matters who shares one: a
record that was handed out lies on a *shelf*, and all who hold it hold its place.
-/
import Toolbar.Cache.Task
import Toolbar.Store.Fault
import Toolbar.Value.Pairs

namespace Toolbar

/-! ## The shelf -/

/-- The records that were handed out, by place. -/
structure Shelf where
  records : List Value := []

namespace Shelf

/-- The record at a place. -/
def get (s : Shelf) (place : Nat) : Value :=
  (s.records[place]?).getD .null

/-- The record at a place, null when there is no place. -/
def get? (s : Shelf) (place : Option Nat) : Value :=
  (place.map s.get).getD .null

/-- The shelf with one more record, and its place. -/
def add (s : Shelf) (v : Value) : Shelf × Nat :=
  (⟨s.records ++ [v]⟩, s.records.length)

/-- The shelf with the record at a place replaced. -/
def set (s : Shelf) (place : Nat) (v : Value) : Shelf :=
  ⟨s.records.set place v⟩

end Shelf

/-! ## The store -/

/-- The records of each entity by id, the faults and fixed answers by key, the requests that were
answered, and whether answers are held back until they are released. -/
structure Store where
  records : List (String × List (String × Value)) := []
  faults : List (String × StoreFault) := []
  fixed : List (String × Value) := []
  calls : List (String × String) := []
  manual : Bool := false

/-- The pairs with the value of a key set, in its place or at the end. -/
def setPair {α : Type} (key : String) (a : α) : List (String × α) → List (String × α)
  | [] => [(key, a)]
  | (k, b) :: rest => if k == key then (key, a) :: rest else (k, b) :: setPair key a rest

namespace Store

/-- The records of an entity. -/
def ofEntity (s : Store) (entity : String) : List (String × Value) :=
  (s.records.lookup entity).getD []

/-- A record; a null one does not exist. -/
def record? (s : Store) (entity id : String) : Option Value :=
  ((s.ofEntity entity).lookup id).filter (!·.isNull)

/-- The store with a record added or replaced. -/
def add (s : Store) (entity id : String) (v : Value) : Store :=
  { s with records := setPair entity (setPair id v (s.ofEntity entity)) s.records }

/-- The key of a request. -/
def keyOf : Request → String
  | .record entity id => Record.key entity id
  | .collection entity _ => "*" ++ entity

/-- What is counted of a request. -/
def callOf : Request → String × String
  | .record entity id => (entity, id)
  | .collection entity query => (entity, query)

/-- The answer of the records to a request. -/
def lookUp (s : Store) : Request → Except StoreFault Value
  | .record entity id =>
      match s.record? entity id with
      | some v => .ok v
      | none => .error (.notFound entity id)
  | .collection entity _ =>
      .ok (.map [("entities", .list ((s.ofEntity entity).map (·.2)))])

/-- The answer to a request. -/
def answer (s : Store) (r : Request) : Except StoreFault Value :=
  match s.faults.lookup (keyOf r), s.fixed.lookup (keyOf r) with
  | some f, _ => .error f
  | none, some v => .ok v
  | none, none => s.lookUp r

/-- The answer to a request, and the store after it. -/
def serve (s : Store) (r : Request) : Store × Except StoreFault Value :=
  ({ s with calls := s.calls ++ [callOf r] }, s.answer r)

/-- How many counted requests were for an entity and an id, each of which may be left open. -/
def countCalls (s : Store) (entity id : Option String) : Nat :=
  (s.calls.filter fun c => entity.all (· == c.1) && id.all (· == c.2)).length

/-- The store with a fault for a key, or with none. -/
def setFault (s : Store) (key : String) (f : Option StoreFault) : Store :=
  match f with
  | some f => { s with faults := setPair key f s.faults }
  | none => { s with faults := s.faults.filter fun e => e.1 != key }

/-- The store with fields of a record set, which must be there.  What comes before a fault is
set. -/
def update (s : Store) (entity id : String) (v : Value) :
    Store × Except (StoreFault ⊕ Fault) Unit :=
  match (s.ofEntity entity).lookup id with
  | none => (s, .error (.inl (.notFound entity id)))
  | some (.map fields) =>
      let (fields, result) := Fields.setPairs fields v.pairs
      (s.add entity id (.map fields), result.mapError .inr)
  | some _ => (s, .error (.inr .noRecord))

end Store

end Toolbar
