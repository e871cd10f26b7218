/-
# `Toolbar.Cache.Fetch` — one fetch, from its start to its record

At most one load of a key should be under way.  So a fetch that meets the mark of another load
pauses, a little longer each time, and looks again; when it has paused as often as it may, it takes
the mark for a stuck one and loads the record itself.

    entry of the key                  pauses left      what the fetch does
    a record                          —                answers with it
    a mark                            yes              pauses
    a mark                            no               sets a mark of its own, loads
    none, or ready without a record   —                sets a mark of its own, loads

A load that ends answers its fetch in any case, but it changes the entry only while that is still
its own mark.
-/
import Toolbar.Cache.Task

namespace Toolbar

/-- How pauses and requests are served.  Each is told the number of the task and the number that its
wait will have.  A pause tells whether it is over at once, a request has its answer at once or has
to wait for it. -/
structure Supplier (ρ φ σ : Type) where
  /-- How often a fetch pauses. -/
  attempts : Nat := 5
  /-- The first pause, in seconds; the others are its multiples. -/
  delay : Number := .real (Binary64.ofRatio false 1 10)
  pause : (task wait : Nat) → Number → σ → σ × Bool
  ask : (task wait : Nat) → Request → σ → σ × Option (Except φ (Option ρ))

/-- A fetch of a task. -/
structure Fetch where
  task : Nat
  entity : String
  id : String
deriving DecidableEq, Repr

namespace Fetch

variable {ρ φ σ : Type}

/-- Where a fetch that has to wait stands. -/
inductive Phase where
  /-- In a pause, the `attempt`-th, with `left` more to come. -/
  | pausing (attempt left : Nat)
  /-- While its record is loaded under its mark. -/
  | loading (mark : Nat)
deriving DecidableEq, Repr

/-- What a fetch has come to: an answer, or a wait. -/
inductive Turn (ρ φ : Type) where
  | answered (r : Except φ (Option ρ))
  | waiting (phase : Phase)

def key (f : Fetch) : String :=
  Record.key f.entity f.id

def request (f : Fetch) : Request :=
  .record f.entity f.id

/-- The shared state after the load under a mark has ended. -/
def finish (f : Fetch) (mark : Nat) (r : Except φ (Option ρ)) (s : Shared ρ σ) : Shared ρ σ :=
  { s with cache := match r with
      | .ok record => s.cache.settle f.key mark record
      | .error _ => s.cache.abandon f.key mark }

/-- The load of the record under a new mark. -/
def load (sup : Supplier ρ φ σ) (f : Fetch) (s : Shared ρ σ) : Shared ρ σ × Turn ρ φ :=
  let (cache, mark) := s.cache.claim f.key
  match sup.ask f.task (s.waits + 1) f.request s.outer with
  | (outer, some r) => (f.finish mark r { s with cache, outer }, .answered r)
  | (outer, none) => ({ s with cache, outer, waits := s.waits + 1 }, .waiting (.loading mark))

/-- The next pause, or the load when there is no mark or no pause left. -/
def pauseOrLoad (sup : Supplier ρ φ σ) (f : Fetch) (attempt : Nat) :
    (left : Nat) → Shared ρ σ → Shared ρ σ × Turn ρ φ
  | 0, s => f.load sup s
  | left + 1, s =>
      if s.cache.isLoading f.key then
        match sup.pause f.task (s.waits + 1) (sup.delay.scale (attempt + 1)) s.outer with
        | (outer, true) => pauseOrLoad sup f (attempt + 1) left { s with outer }
        | (outer, false) =>
            ({ s with outer, waits := s.waits + 1 }, .waiting (.pausing (attempt + 1) left))
      else f.load sup s

/-- What a fetch comes to when it looks at the cache after `attempt` pauses. -/
def proceed (sup : Supplier ρ φ σ) (f : Fetch) (attempt left : Nat) (s : Shared ρ σ) :
    Shared ρ σ × Turn ρ φ :=
  match s.cache.record? f.key with
  | some record => (s, .answered (.ok (some record)))
  | none => f.pauseOrLoad sup attempt left s

/-- What a fetch comes to at its start. -/
def start (sup : Supplier ρ φ σ) (f : Fetch) (s : Shared ρ σ) : Shared ρ σ × Turn ρ φ :=
  f.proceed sup 0 sup.attempts s

/-- The shared state after a fetch has been given up in a wait. -/
def giveUp (f : Fetch) (phase : Phase) (s : Shared ρ σ) : Shared ρ σ :=
  match phase with
  | .pausing _ _ => s
  | .loading mark => { s with cache := s.cache.abandon f.key mark }

end Fetch

end Toolbar
