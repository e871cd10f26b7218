/-
# `Toolbar.Event.Delivery` — an event on its way to its listeners

What a listener does when it is called is its conduct: it does one act after the other, each chosen
in view of what has come of those before, and it ends or fails.  Publishing calls the listeners that
an event has when it starts, one after the other, each to its end; a listener that fails is passed
over.  A listener can publish in its turn, so publishing is bounded in its depth, and what goes beyond
the bound fails like any other act.
-/
import Toolbar.Event.Basic
import Toolbar.Event.Bus

namespace Toolbar.Event

/-- One act of a listener. -/
inductive Act (κ : Type) where
  /-- The payload is written down. -/
  | note
  | subscribe (name : String) (listener : κ)
  | unsubscribe (name : String) (listener : κ)
  /-- A key of the payload is set, for all listeners that follow. -/
  | set (key : String) (v : Value)
  | publish (event : Value)
  /-- The end is written down. -/
  | close
  | fail

/-- What is written down while events are delivered. -/
inductive Note (κ : Type) where
  | called (listener : κ) (payload : Value)
  | removed (was : Bool)
  | closed (listener : κ)

/-- The bus and what has been written down. -/
structure Hall (κ : Type) where
  bus : Bus κ := {}
  notes : List (Note κ) := []

variable {κ : Type}

/-- The hall with one more note. -/
def Hall.write (h : Hall κ) (n : Note κ) : Hall κ :=
  { h with notes := h.notes ++ [n] }

/-- What a listener does when it is called.  After an act it is told whether the act succeeded, and
goes on as it likes with the event and the hall before it. -/
inductive Conduct (κ : Type) where
  | done
  | failed
  | act (a : Act κ) (next : (succeeded : Bool) → Value → Hall κ → Conduct κ)

/-- Acts done in order, up to the first that fails. -/
def Conduct.inOrder : List (Act κ) → Conduct κ
  | [] => .done
  | a :: acts => .act a fun succeeded _ _ => if succeeded then inOrder acts else .failed

/-- How the listeners behave.  A listener may go by the event, by who is registered and by what has
been written down, so it need not do the same whenever it is called. -/
abbrev Manners (κ : Type) : Type :=
  κ → Value → Hall κ → Conduct κ

/-- Why an event is not delivered. -/
inductive Undelivered where
  | invalid (reason : Invalid)
  | tooDeep
deriving DecidableEq, Repr

/-- The event with a key of its payload set. -/
def setPayload (event : Value) (key : String) (v : Value) : Value :=
  match event, event.field "payload" with
  | .map fields, .map payload =>
      .map (Fields.set "payload" (.map (Fields.set key v payload)) fields)
  | _, _ => event

section Delivery

variable [DecidableEq κ] (publishInner : Value → Hall κ → Hall κ × Except Undelivered Unit)

/-- Does one act of a listener: whether it succeeds, the event after it, and the hall. -/
def Act.run (listener : κ) : Act κ → Value → Hall κ → Bool × Value × Hall κ
  | .note, event, h => (true, event, h.write (.called listener (event.field "payload")))
  | .subscribe name other, event, h => (true, event, { h with bus := h.bus.subscribe name other })
  | .unsubscribe name other, event, h =>
      let (bus, was) := h.bus.unsubscribe name other
      (true, event, { h with bus }.write (.removed was))
  | .set key v, event, h => (true, setPayload event key v, h)
  | .publish inner, event, h =>
      let (h, sent) := publishInner inner h
      (sent.isOk, event, h)
  | .close, event, h => (true, event, h.write (.closed listener))
  | .fail, event, h => (false, event, h)

/-- Calls a listener: whether it ends without failing, the event after it, and the hall. -/
def perform (listener : κ) : Conduct κ → Value → Hall κ → Bool × Value × Hall κ
  | .done, event, h => (true, event, h)
  | .failed, event, h => (false, event, h)
  | .act a next, event, h =>
      let (succeeded, event, h) := a.run publishInner listener event h
      perform listener (next succeeded event h) event h

/-- Calls listeners one after the other, whether or not they fail. -/
def deliver (manners : Manners κ) : List κ → Value → Hall κ → Hall κ
  | [], _, h => h
  | k :: ks, event, h =>
      let (_, event, h) := perform publishInner k (manners k event h) event h
      deliver manners ks event h

end Delivery

/-- Publishes an event; `depth` bounds how deep publishing is nested. -/
def broadcast [DecidableEq κ] (manners : Manners κ) :
    (depth : Nat) → Value → Hall κ → Hall κ × Except Undelivered Unit
  | 0, _, h => (h, .error .tooDeep)
  | depth + 1, event, h =>
      match validate event with
      | .error reason => (h, .error (.invalid reason))
      | .ok name => (deliver (broadcast manners depth) manners (h.bus.listeners name) event h, .ok ())

/-- Publishes an event to listeners that do the same acts whenever they are called. -/
def publish [DecidableEq κ] (acts : κ → List (Act κ)) :
    (depth : Nat) → Value → Hall κ → Hall κ × Except Undelivered Unit :=
  broadcast fun k _ _ => .inOrder (acts k)

/-- The depth to which publishing may be nested. -/
def depthLimit : Nat := 200

end Toolbar.Event
