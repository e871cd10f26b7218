/-
# `Toolbar.Cache.Task` — work over a cache that may have to wait

A task computes a result in steps.  It reads the shared state, changes what lies outside the cache,
moves entries of the cache, fetches a record through the cache, or asks the store itself.  Only the
last two may have to wait, and between two waits nothing else happens: a task is a tree whose
branches are the answers that it may get.

    step      what it does                                              waits
    look      goes on with the shared state as it is                    no
    change    changes the state outside the cache                       no
    move      puts, invalidates, clears or leaves a scope               no
    fetch     fetches a record, touching the key in a scope             at a pause or at the store
    ask       asks the store, past the cache                            at the store
-/
import Toolbar.Cache.Basic
import Toolbar.Number.Basic
import Toolbar.Record.Id

namespace Toolbar

/-- What a store is asked for. -/
inductive Request where
  | record (entity id : String)
  | collection (entity query : String)
deriving DecidableEq, Repr

/-- What all tasks share: the cache, the scopes, the number of waits so far, and the state outside
the cache. -/
structure Shared (ρ σ : Type) where
  cache : Cache ρ := {}
  scopes : Scopes := []
  waits : Nat := 0
  outer : σ

/-- A change of the cache that needs no record. -/
inductive Move (ρ : Type) where
  | put (key : String) (record : Option ρ)
  | invalidate (keys : List String)
  | clear
  /-- The keys of a scope are invalidated and forgotten. -/
  | leave (scope : Nat)

namespace Move

variable {ρ σ : Type}

/-- The shared state after a move, and how many entries were removed by it. -/
def apply (m : Move ρ) (s : Shared ρ σ) : Shared ρ σ × Nat :=
  match m with
  | put key record => ({ s with cache := s.cache.put key record }, 0)
  | invalidate keys =>
      let (cache, count) := s.cache.invalidate keys
      ({ s with cache }, count)
  | clear => ({ s with cache := s.cache.clear }, 0)
  | leave scope =>
      let (cache, count) := s.cache.invalidate (s.scopes.keys scope)
      ({ s with cache, scopes := s.scopes.set scope [] }, count)

end Move

/-- Work that reads and changes the shared state and may have to wait.  Records are of type `ρ`,
faults of the store of type `φ`, the state outside the cache of type `σ`. -/
inductive Task (ρ φ σ α : Type) where
  | done (a : α)
  | look (next : Shared ρ σ → Task ρ φ σ α)
  | change (f : σ → σ) (next : Task ρ φ σ α)
  | move (m : Move ρ) (next : Nat → Task ρ φ σ α)
  | fetch (scope : Option Nat) (entity id : String) (next : Except φ (Option ρ) → Task ρ φ σ α)
  | ask (request : Request) (next : Except φ (Option ρ) → Task ρ φ σ α)

namespace Task

variable {ρ φ σ α β : Type}

/-- Work followed by work on its result. -/
def bind (t : Task ρ φ σ α) (f : α → Task ρ φ σ β) : Task ρ φ σ β :=
  match t with
  | done a => f a
  | look next => look fun s => (next s).bind f
  | change g next => change g (next.bind f)
  | move m next => move m fun n => (next n).bind f
  | fetch scope entity id next => fetch scope entity id fun r => (next r).bind f
  | ask request next => ask request fun r => (next r).bind f

instance : Monad (Task ρ φ σ) where
  pure := done
  bind := bind

/-- The state outside the cache. -/
def outer : Task ρ φ σ σ :=
  look fun s => done s.outer

/-- A change of the state outside the cache. -/
def modify (f : σ → σ) : Task ρ φ σ Unit :=
  change f (done ())

/-- A change of the state outside the cache that has a result. -/
def update (f : σ → σ × α) : Task ρ φ σ α :=
  look fun s => change (fun _ => (f s.outer).1) (done (f s.outer).2)

end Task

end Toolbar
