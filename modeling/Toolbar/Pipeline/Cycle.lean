/-
# `Toolbar.Pipeline.Cycle` — from the configurations to the buttons

A load fetches the record of the form; a cycle resolves the configurations against it, one after the
other, in the order of their positions.  Loads and cycles of one pipeline may overlap wherever they
wait, and each then goes on with the pipeline as it finds it.
-/
import Toolbar.Button.Order
import Toolbar.Expr.Visibility
import Toolbar.Session.Basic

namespace Toolbar

/-- A configuration with the references in its texts replaced. -/
def Button.Config.resolve (c : Button.Config) : ExceptT Fault Resolution Button.Config := do
  let label ← Template.resolve c.label
  let tooltip ← Template.resolve c.tooltip
  let url ← Template.resolve c.url
  let script ← Template.resolve c.script
  return { c with label, tooltip, url, script }

namespace Session

/-- The session after the load of a pipeline has gone well.  Conditions are about the same record,
or about an empty one when it is no record. -/
def loadedPipeline (n : Nat) (place : Option Nat) (s : Session) : Session :=
  match s.shelf.get? place with
  | .map _ => s.onPipeline n (·.loaded place place)
  | _ =>
      let (s, empty) := s.shelve (.map [])
      s.onPipeline n (·.loaded place (some empty))

/-- The session after a pipeline has begun with a new record. -/
def newPipelineRecord (n : Nat) (s : Session) : Session :=
  let (s, empty) := s.shelve (.map [])
  s.onPipeline n (·.loaded (some empty) (some empty))

/-- The session after the load of a pipeline has failed. -/
def failedPipelineLoad (n : Nat) (text : String) (s : Session) : Session :=
  let (s, empty) := s.shelve (.map [])
  let (s, other) := s.shelve (.map [])
  s.onPipeline n (·.loadFailed text (some empty) (some other))

/-- The session after a click on a button of a pipeline, and its outcome. -/
def clickPipeline (n : Nat) (index : Int) (s : Session) :
    Session × Except Action.Escape Action.Outcome :=
  let p := s.pipeline n
  match (if 0 ≤ index then p.buttons[index.toNat]? else none) with
  | none => (s, .ok (Action.missed index))
  | some b =>
      let c := Action.click p.host p.fallback (s.shelf.get? p.record) b.config.script b.config.url
      let s := (s.writeEffects c.effects).onPage p.page c.page
      match p.record with
      | none => (s, c.outcome)
      | some place => ({ s with shelf := s.shelf.set place c.record }, c.outcome)

/-- The session without the subscription of a pipeline, which is torn down. -/
def tearDownPipeline (n : Nat) (s : Session) : Session :=
  let s := if (s.pipeline n).listens then
    { s with bus := (s.bus.unsubscribe Event.recordSaved (.pipeline n)).1 } else s
  s.onPipeline n Pipeline.tornDown

end Session

namespace Pipeline

open Session

/-- Loads the record of the form; whether it went well. -/
def load (n : Nat) : Work Bool := do
  Task.modify (onPipeline n loading)
  let p ← Work.pipeline n
  if Record.isNew p.recordId then
    Task.modify (newPipelineRecord n)
    return true
  else
    .fetch (some n) p.entity (p.recordId.getD "") fun
      | .ok place => do
          Task.modify (loadedPipeline n place)
          return true
      | .error f => do
          Task.modify (failedPipelineLoad n f.text)
          return false

/-- The button that a configuration makes, unless its condition does not hold. -/
def resolveOne (n : Nat) (c : Button.Config) : Work (Except Fault (Option Button.Shown)) := do
  let p ← Work.pipeline n
  match ← Work.resolve p.record n c.resolve.run with
  | .error f => return .error f
  | .ok resolved =>
      let p ← Work.pipeline n
      let shown ← Work.resolve p.evaluated n
        (Expr.holdsFor true p.host.toSurroundings c.visibility)
      return .ok (if shown then some ⟨resolved⟩ else none)

/-- The buttons that configurations make, up to the first fault. -/
def resolveEach (n : Nat) : List Button.Config → Work (Except Fault (List Button.Shown))
  | [] => return .ok []
  | c :: cs => do
      match ← resolveOne n c with
      | .error f => return .error f
      | .ok b =>
          match ← resolveEach n cs with
          | .error f => return .error f
          | .ok bs => return .ok (b.toList ++ bs)

/-- The end of a cycle that failed. -/
def endFailed (n : Nat) : Work (Except Fault (List Button.Shown)) := do
  Task.modify (onPipeline n cycleFailed)
  return .ok []

/-- Resolves the configurations of a pipeline, if it may start a cycle.  Configurations without a
hash are a fault of the caller. -/
def cycle (n : Nat) : Work (Except Fault (List Button.Shown)) := do
  let p ← Work.pipeline n
  if !p.mayStart then return .ok p.buttons
  Task.modify (onPipeline n cycling)
  match Button.Config.hash p.configs with
  | .error f => return .error f
  | .ok hash =>
      Task.modify (onPipeline n fun p => { p with cycleHash := some hash })
      match Button.sortByPosition p.configs with
      | .error _ => endFailed n
      | .ok configs =>
          match ← resolveEach n configs with
          | .error _ => endFailed n
          | .ok buttons =>
              Task.modify (onPipeline n (·.resolved buttons))
              return .ok buttons

/-- A load and, if it went well, a cycle. -/
def run (n : Nat) : Work (Except Fault (List Button.Shown)) := do
  if ← load n then cycle n
  else
    let p ← Work.pipeline n
    return .ok p.buttons

/-- A cycle over new configurations. -/
def replaceConfigs (n : Nat) (configs : List Button.Config) :
    Work (Except Fault (List Button.Shown)) := do
  Task.modify (onPipeline n fun p => { p with configs })
  cycle n

/-- New configurations; when the last cycle was over configurations of the same hash its buttons
stay. -/
def setConfigs (n : Nat) (configs : List Button.Config) :
    Work (Except Fault (List Button.Shown)) := do
  let p ← Work.pipeline n
  if p.stage = .resolved || p.stage = .error then
    match Button.Config.hash configs with
    | .error f => return .error f
    | .ok hash =>
        if p.cycleHash = some hash then return .ok p.buttons else replaceConfigs n configs
  else replaceConfigs n configs

/-- A run after everything that the pipeline has fetched is forgotten. -/
def reload (n : Nat) : Work (Except Fault (List Button.Shown)) :=
  .move (.leave n) fun _ => run n

/-- Whether a payload names the record of a pipeline. -/
def isAbout (p : Pipeline) (payload : Value) : Bool :=
  (payload.field "entity").text? == some p.entity
    && p.recordId.isSome && (payload.field "record_id").text? == p.recordId

/-- What a pipeline does when it hears of a saved record. -/
def onSaved (n : Nat) (payload : Value) : Work Unit := do
  let p ← Work.pipeline n
  if isAbout p payload then
    let _ ← reload n
    return ()
  else return ()

/-- A click on a button. -/
def click (n : Nat) (index : Int) : Work (Except Action.Escape Action.Outcome) :=
  Task.update (clickPipeline n index)

/-- Takes the form down: what it has fetched is forgotten and it listens no more. -/
def tearDown (n : Nat) : Work Unit :=
  .move (.leave n) fun _ => Task.modify (tearDownPipeline n)

end Pipeline

end Toolbar
