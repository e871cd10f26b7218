/-
# `Toolbar.Session.Publish` — events of a session

An event goes to the listeners that it has when it is published, one after the other: the host
writes down what it hears, a pipeline reloads when its record was saved.  A pipeline that fails
to do so does not keep the others from hearing.
-/
import Toolbar.Event.Basic
import Toolbar.Pipeline.Cycle

namespace Toolbar.Session

/-- What the host writes down of an event. -/
def heard (name : String) (event : Value) : Note :=
  let source := (event.field "meta").field "source"
  let payload := event.field "payload"
  if name == Event.controlDestroyed then .destroyed (payload.field "control_id") source
  else .saved payload source

/-- What a listener does with an event. -/
def hear (name : String) (event : Value) : Listener → Work Unit
  | .host => Task.modify (·.write (heard name event))
  | .pipeline n => Pipeline.onSaved n (event.field "payload")

/-- Lets listeners hear an event, one after the other. -/
def deliver (name : String) (event : Value) : List Listener → Work Unit
  | [] => return ()
  | l :: ls => do
      hear name event l
      deliver name event ls

/-- Publishes an event, which must be valid. -/
def publish (event : Value) : Work (Except Event.Invalid Unit) := do
  match Event.validate event with
  | .error e => return .error e
  | .ok name =>
      let s ← Task.outer
      deliver name event (s.bus.listeners name)
      return .ok ()

/-- Publishes a new event with an id and an instant; the source may be null. -/
def announce (id now name : String) (payload : Fields) (source : Value) :
    Work (Except Event.Invalid Unit) :=
  match Event.make id now (.text name) (.map payload) (.map [("source", source)]) with
  | .error e => .done (.error e)
  | .ok event => publish event

/-- Tells everybody that a record was saved. -/
def announceSaved (id now : String) (entity recordId source : Value) :
    Work (Except Event.Invalid Unit) :=
  announce id now Event.recordSaved [("entity", entity), ("record_id", recordId)] source

end Toolbar.Session
