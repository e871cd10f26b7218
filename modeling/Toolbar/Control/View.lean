/-
# `Toolbar.Control.View` — what a control shows and does

A view loads the configurations if the condition has changed since they were last loaded, lets the
pipeline do its work and shows the bar, or a message while there is none.
-/
import Toolbar.Button.Source
import Toolbar.Markup.Bar
import Toolbar.Session.Publish

namespace Toolbar.Control

open Session

/-- What is shown when configurations cannot be had for a reason without a text. -/
def configFaultText : String := "Failed to fetch button configurations"

/-- The configurations of an entity under a condition, or what is shown instead. -/
def fetchConfigs (configEntity entity condition : String) :
    Work (Except Fault (List Button.Config × Option String)) :=
  .ask (.collection configEntity (Button.Source.query entity condition)) fun
    | .error f =>
        let text := f.text
        .done (.ok ([], some (if text.isEmpty then configFaultText else text)))
    | .ok place => do
        let answer ← Work.valueAt place
        return (Button.Source.ofAnswer answer).map fun configs => (configs, none)

/-- Sets a control up for a form: it has a new pipeline, which listens. -/
def setUp (c : Nat) (entity recordId condition : String) : Work Unit :=
  Task.modify fun s =>
    let k := s.control c
    let s := s.onControl c fun k =>
      { k with entity, recordId, condition, pipeline := some s.pipelines.length }
    s.addPipeline
      { entity, recordId := some recordId, host := k.host, page := k.page, fallback := k.fallback }

/-- Loads the configurations of a control. -/
def loadConfigs (c : Nat) : Work (Except Fault Unit) := do
  let s ← Task.outer
  let k := s.control c
  match ← fetchConfigs s.configEntity k.entity k.condition with
  | .error f => return .error f
  | .ok (configs, configError) =>
      Task.modify (onControl c fun k =>
        { k with configs, configError, loadedCondition := some k.condition })
      return .ok ()

/-- Lets the pipeline work over the configurations of a control, as its stage allows. -/
def advance (n : Nat) (configs : List Button.Config) : Work (Except Fault Unit) := do
  let p ← Work.pipeline n
  if p.stage = .idle then
    Task.modify (onPipeline n fun p => { p with configs })
    return (← Pipeline.run n).map fun _ => ()
  else if p.stage.mayStart then
    return (← Pipeline.setConfigs n configs).map fun _ => ()
  else return .ok ()

/-- What a pipeline shows. -/
def shown (p : Pipeline) : String :=
  if p.stage = .error then
    Markup.message (Pipeline.faultText (p.error.getD "")) "error"
  else if p.stage = .resolved then Markup.bar none (p.buttons.map (·.toValue))
  else Markup.message Markup.loadingText "info"

/-- Loads the configurations of a control if its condition has changed. -/
def refreshConfigs (c : Nat) : Work (Except Fault Unit) := do
  let k ← Work.control c
  if k.loadedCondition = some k.condition then return .ok () else loadConfigs c

/-- What a control shows once its configurations are there. -/
def showLoaded (c : Nat) : Work (Except Refusal String) := do
  let k ← Work.control c
  match k.configError, k.pipeline with
  | some text, _ => return .ok (Markup.message ("Error: " ++ text) "error")
  | none, none => return .error .notSetUp
  | none, some n =>
      match ← advance n k.configs with
      | .error f => return .error (.value f)
      | .ok () =>
          let p ← Work.pipeline n
          return .ok (shown p)

/-- What a control shows, under a new condition if one is given. -/
def view (c : Nat) (condition : Option String) : Work (Except Refusal String) := do
  let k ← Work.control c
  if k.pipeline.isNone then return .error .notSetUp
  match condition with
  | none => pure ()
  | some condition => Task.modify (onControl c fun k => { k with condition })
  match ← refreshConfigs c with
  | .error f => return .error (.value f)
  | .ok () => showLoaded c

/-- A click on a button of a control. -/
def click (c : Nat) (index : Int) : Work (Except Refusal Action.Outcome) := do
  let k ← Work.control c
  match k.pipeline with
  | none => return .error .notSetUp
  | some n => return (← Pipeline.click n index).mapError .action

/-- Tells everybody that the record of a control was saved. -/
def save (id now : String) (c : Nat) : Work (Except Event.Invalid Unit) := do
  let k ← Work.control c
  announceSaved id now (.text k.entity) (.text k.recordId) (.text k.id)

/-- Takes a control down and tells everybody. -/
def destroy (id now : String) (c : Nat) : Work (Except Event.Invalid Unit) := do
  let k ← Work.control c
  match k.pipeline with
  | none => pure ()
  | some n => Pipeline.tearDown n
  announce id now Event.controlDestroyed [("control_id", .text k.id)] (.text k.id)

end Toolbar.Control
