/-
# `Toolbar.Record.Resolution` — work that reads records

A resolution computes a result from the base record and from records that it fetches one after the
other.  It is a tree: at each step it is done, or it looks at the base record as it is at that
moment, or it asks for a record and goes on with the answer, `none` when there is no such record.
How a fetch is answered is left open; `direct` answers each fetch by the store itself, and the
cache is another interpreter of the same tree.
-/
import Toolbar.Fault
import Toolbar.Record.Lookup

namespace Toolbar

/-- Work that reads the base record and fetches records. -/
inductive Resolution (α : Type) where
  | done (a : α)
  | look (next : Value → Resolution α)
  | fetch (entity id : String) (next : Option Value → Resolution α)

namespace Resolution

/-- Work followed by work on its result. -/
def bind {α β : Type} (r : Resolution α) (f : α → Resolution β) : Resolution β :=
  match r with
  | done a => f a
  | look next => look fun v => (next v).bind f
  | fetch entity id next => fetch entity id fun v => (next v).bind f

instance : Monad Resolution where
  pure := done
  bind := bind

/-- The result when the base record is `base` and every fetch is answered by `store`. -/
def direct {α : Type} (base : Value) (store : String → String → Option Value) : Resolution α → α
  | done a => a
  | look next => direct base store (next base)
  | fetch entity id next => direct base store (next (store entity id))

theorem direct_bind {α β : Type} (record : Value) (store : String → String → Option Value)
    (r : Resolution α) (f : α → Resolution β) :
    (r.bind f).direct record store = (f (r.direct record store)).direct record store := by
  induction r with
  | done a => rfl
  | look next ih => exact ih record
  | fetch entity id next ih => exact ih (store entity id)

/-- The record at the end of a chain of lookups that begins at `current`; null when a lookup has no
target or its target is no record. -/
def follow (current : Value) : List String → Resolution Value
  | [] => done current
  | name :: names =>
      match Lookup.target? current name with
      | none => done .null
      | some (entity, id) => fetch entity id fun answer =>
          match answer with
          | some (.map fields) => follow (.map fields) names
          | _ => done .null

/-- The record at the end of a chain of lookups that begins at the base record; a chain has at least
one lookup. -/
def chain (lookups : List String) : ExceptT Fault Resolution Value :=
  if lookups.isEmpty then throw .emptyChain
  else ExceptT.lift (look fun base => follow base lookups)

end Resolution

end Toolbar
