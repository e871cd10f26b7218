/-
# `Toolbar.Pipeline.Basic` — the buttons of one form

A pipeline turns the configurations of a form's buttons into the buttons that are shown: it loads
the record of the form, resolves the texts of each configuration against it and keeps those whose
condition holds.

    stage                 reached by                          goes on to
    idle                  construction, teardown              loading the record
    loading the record    the start of a load                 ready, or error
    ready                 a load that went well               resolving
    resolving             the start of a cycle                resolved, or error
    resolved, error       the end of a cycle or load          resolving, loading the record
-/
import Toolbar.Action.Click
import Toolbar.Button.Config

namespace Toolbar

namespace Pipeline

/-- Where a pipeline stands. -/
inductive Stage where
  | idle
  | loadingRecord
  | error
  | ready
  | resolving
  | resolved
deriving DecidableEq, Repr

/-- The name of a stage. -/
def Stage.text : Stage → String
  | idle => "idle"
  | loadingRecord => "loading_record"
  | error => "error"
  | ready => "ready"
  | resolving => "resolving_configs"
  | resolved => "resolved"

/-- Whether a cycle may start at a stage. -/
def Stage.mayStart : Stage → Bool
  | ready | resolved | error => true
  | _ => false

end Pipeline

/-- The buttons of one form.  `record` is the place of the record that texts are resolved against
and that scripts change, `evaluated` that of the record that conditions are about.  Pipelines with
the same `page` are on one page, and see what a script changes of it. -/
structure Pipeline where
  entity : String
  recordId : Option String
  configs : List Button.Config := []
  host : Action.Host := {}
  page : Nat := 0
  /-- What shows a failure where the page has no alert, null for nothing. -/
  fallback : Value := .null
  /-- Whether it listens to saved records. -/
  listens : Bool := true
  stage : Pipeline.Stage := .idle
  error : Option String := none
  record : Option Nat := none
  evaluated : Option Nat := none
  buttons : List Button.Shown := []
  recordLoaded : Bool := false
  /-- The hash of the configurations of the last cycle. -/
  cycleHash : Option String := none

namespace Pipeline

instance : Inhabited Pipeline := ⟨{ entity := "", recordId := none }⟩

/-- Whether a cycle may start. -/
def mayStart (p : Pipeline) : Bool :=
  p.recordLoaded && p.stage.mayStart

/-- What is shown when a cycle fails. -/
def cycleFaultText : String := "Failed to process button configurations"

/-- What is shown for a fault without a text. -/
def unknownFaultText : String := "Unknown error occurred"

/-- A text, or what is shown instead of an empty one. -/
def faultText (s : String) : String :=
  if s.isEmpty then unknownFaultText else s

/-- At the start of a load. -/
def loading (p : Pipeline) : Pipeline :=
  { p with stage := .loadingRecord, error := none }

/-- After a load that went well. -/
def loaded (p : Pipeline) (record evaluated : Option Nat) : Pipeline :=
  { p with record, evaluated, recordLoaded := true, cycleHash := none, stage := .ready }

/-- After a load that failed. -/
def loadFailed (p : Pipeline) (text : String) (record evaluated : Option Nat) : Pipeline :=
  { p with error := some (faultText text), record, evaluated, recordLoaded := false, buttons := [],
           stage := .error }

/-- At the start of a cycle. -/
def cycling (p : Pipeline) : Pipeline :=
  { p with stage := .resolving, error := none }

/-- After a cycle that went well. -/
def resolved (p : Pipeline) (buttons : List Button.Shown) : Pipeline :=
  { p with buttons, stage := .resolved }

/-- After a cycle that failed. -/
def cycleFailed (p : Pipeline) : Pipeline :=
  { p with error := some cycleFaultText, buttons := [], stage := .error }

/-- After the form has been taken down. -/
def tornDown (p : Pipeline) : Pipeline :=
  { p with recordLoaded := false, stage := .idle }

end Pipeline

end Toolbar
