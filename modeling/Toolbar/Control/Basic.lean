/-
# `Toolbar.Control.Basic` — the bar of one form

A control stands for the bar on a page: it loads the configurations for its entity and a condition,
and hands them to the pipeline of the form that it was last set up for.
-/
import Toolbar.Pipeline.Basic

namespace Toolbar

/-- The bar of one form; `condition` narrows down its configurations, and `loadedCondition` is the
one that they were last loaded under. -/
structure Control where
  id : String
  host : Action.Host := {}
  page : Nat := 0
  fallback : Value := .null
  entity : String := ""
  recordId : String := ""
  condition : String := ""
  configs : List Button.Config := []
  configError : Option String := none
  pipeline : Option Nat := none
  loadedCondition : Option String := none

instance : Inhabited Control := ⟨{ id := "" }⟩

end Toolbar
