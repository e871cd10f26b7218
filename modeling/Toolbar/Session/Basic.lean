/-
# `Toolbar.Session.Basic` — everything that the bars of one session share

A session has one store, one bus, and the pipelines and controls that work over them; the cache
that they share is kept by the machine that runs them.  What happens is written down in order,
and that is all the outside sees besides the state.
-/
import Toolbar.Cache.Machine
import Toolbar.Control.Basic
import Toolbar.Event.Basic
import Toolbar.Event.Bus
import Toolbar.Record.Resolution
import Toolbar.Store.Basic

namespace Toolbar

/-- Who listens to events: the host, or a pipeline. -/
inductive Listener where
  | host
  | pipeline (n : Nat)
deriving DecidableEq, Repr

/-- What is written down. -/
inductive Note where
  | asked (request : Request)
  | waiting (wait : Nat)
  | paused (delay : Number)
  | effect (e : Action.Effect)
  /-- The host hears that a record was saved. -/
  | saved (payload source : Value)
  /-- The host hears that a control was taken down. -/
  | destroyed (control source : Value)

/-- What the bars of one session share, the cache apart. -/
structure Session where
  store : Store := {}
  shelf : Shelf := {}
  bus : Bus Listener := {}
  pipelines : List Pipeline := []
  controls : List Control := []
  configEntity : String := "theia_buttonconfiguration"
  notes : List Note := []

namespace Session

/-- The session with one more note. -/
def write (s : Session) (n : Note) : Session :=
  { s with notes := s.notes ++ [n] }

/-- The session with the effects of an action written down. -/
def writeEffects (s : Session) (es : List Action.Effect) : Session :=
  { s with notes := s.notes ++ es.map .effect }

/-- A pipeline. -/
def pipeline (s : Session) (n : Nat) : Pipeline :=
  (s.pipelines[n]?).getD default

theorem pipeline_of_getElem? {s : Session} {n : Nat} {p : Pipeline}
    (h : s.pipelines[n]? = some p) : s.pipeline n = p := by
  rw [pipeline, h, Option.getD_some]

/-- The session with a pipeline changed. -/
def onPipeline (n : Nat) (f : Pipeline → Pipeline) (s : Session) : Session :=
  { s with pipelines := s.pipelines.modify n f }

/-- A control. -/
def control (s : Session) (n : Nat) : Control :=
  (s.controls[n]?).getD default

/-- The session with a control changed. -/
def onControl (n : Nat) (f : Control → Control) (s : Session) : Session :=
  { s with controls := s.controls.modify n f }

/-- The session with a page changed, for all that are on it. -/
def onPage (n : Nat) (page : Action.Page) (s : Session) : Session :=
  { s with
    pipelines := s.pipelines.map fun p =>
      if p.page = n then { p with host := { p.host with toPage := page } } else p
    controls := s.controls.map fun c =>
      if c.page = n then { c with host := { c.host with toPage := page } } else c }

/-- The session with a record put on the shelf, and its place. -/
def shelve (s : Session) (v : Value) : Session × Nat :=
  let (shelf, place) := s.shelf.add v
  ({ s with shelf }, place)

/-- The answer of the store to a request, put on the shelf unless it is null. -/
def serve (r : Request) (s : Session) : Session × Except StoreFault (Option Nat) :=
  match s.store.serve r with
  | (store, .error f) => ({ s with store }, .error f)
  | (store, .ok .null) => ({ s with store }, .ok none)
  | (store, .ok v) =>
      let (s, place) := { s with store }.shelve v
      (s, .ok (some place))

/-- How a session serves pauses and requests: pauses are over at once, and so are requests unless
the store holds its answers back. -/
def supplier (attempts : Nat) (delay : Number) : Supplier Nat StoreFault Session where
  attempts := attempts
  delay := delay
  pause := fun _ _ d s => (s.write (.paused d), true)
  ask := fun _ wait r s =>
    let s := s.write (.asked r)
    if s.store.manual then (s.write (.waiting wait), none)
    else
      let (s, reply) := s.serve r
      (s, some reply)

/-- The session with one more pipeline, the last, which listens if it is to. -/
def addPipeline (p : Pipeline) (s : Session) : Session :=
  { s with
    pipelines := s.pipelines ++ [p]
    bus := if p.listens then s.bus.subscribe Event.recordSaved (.pipeline s.pipelines.length)
      else s.bus }

end Session

/-- Work of a session. -/
abbrev Work := Task Nat StoreFault Session

namespace Work

/-- A pipeline as it is now. -/
def pipeline (n : Nat) : Work Pipeline :=
  .look fun s => .done (s.outer.pipeline n)

/-- A control as it is now. -/
def control (n : Nat) : Work Control :=
  .look fun s => .done (s.outer.control n)

/-- The value at a place as it is now. -/
def valueAt (place : Option Nat) : Work Value :=
  .look fun s => .done (s.outer.shelf.get? place)

/-- A resolution about the record at a place, as work of a session; what it fetches is touched in a
scope.  A record that cannot be had is none. -/
def resolve {α : Type} (base : Option Nat) (scope : Nat) : Resolution α → Work α
  | .done a => .done a
  | .look next => .look fun s => resolve base scope (next (s.outer.shelf.get? base))
  | .fetch entity id next =>
      .fetch (some scope) entity id fun
        | .ok (some place) =>
            .look fun s => resolve base scope (next (some (s.outer.shelf.get place)))
        | _ => resolve base scope (next none)

end Work

/-- Why an operation of a session has no result. -/
inductive Refusal where
  | value (f : Fault)
  | store (f : StoreFault)
  | event (e : Event.Invalid)
  /-- A click that something got out of. -/
  | action (e : Action.Escape)
  /-- A control that was not set up for a form. -/
  | notSetUp
deriving DecidableEq, Repr

end Toolbar
