/-
# `Toolbar.Action.Click` — what a click on a button does

A button with a script runs it; one without a script opens its address; one with neither does
nothing.  A click has an outcome, whose list of issues is empty exactly when it went well, unless
something gets out of it.
-/
import Toolbar.Action.Script

namespace Toolbar.Action

/-- What was wrong with a click, with the one value that the issue is about. -/
structure Issue where
  code : String
  message : String
  path : String
  detail : Option (String × Value) := none

/-- What a click set out to do. -/
inductive Intent where
  | script
  | navigate
  | nothing
deriving DecidableEq, Repr

/-- The outcome of a click. -/
structure Outcome where
  intent : Intent
  issues : List Issue := []

/-- Whether a click went well. -/
def Outcome.isOk (o : Outcome) : Bool :=
  o.issues.isEmpty

/-- What a click leaves. -/
structure Clicked where
  effects : List Effect := []
  record : Value
  page : Page
  outcome : Except Escape Outcome

/-- The outcome of opening an address, by how the call ended. -/
def opened (url : Value) : Ending → Except Escape Outcome
  | .done => .ok ⟨.navigate, []⟩
  | .failed e => match e.text with
      | .ok text => .ok ⟨.navigate,
          [⟨"CLICK_NAVIGATION_FAILED", text, "url", some ("url", url)⟩]⟩
      | .error kind => .error (.untold kind)
  | .left kind => .error (.left kind)

/-- What a click that opens an address does. -/
def navigate (page : Page) (record url : Value) : Clicked :=
  match page.capability? "open_url" with
  | .error fault => { record, page, outcome := .error (.unread fault) }
  | .ok none =>
      { record, page, outcome := .ok ⟨.navigate,
          [⟨"CLICK_NAVIGATION_UNAVAILABLE", "host cannot open URLs", "url", some ("url", url)⟩]⟩ }
  | .ok (some f) =>
      let (effects, ending) := page.call f url
      { effects, record, page, outcome := opened url ending }

/-- The outcome of a script, by how its run concluded. -/
def Conclusion.outcome : Conclusion → Except Escape Outcome
  | succeeded => .ok ⟨.script, []⟩
  | failed _ text => .ok ⟨.script, [⟨scriptCode, text, "action_script", none⟩]⟩
  | escaped escape => .error escape

/-- What a click on a button with a script and an address does. -/
def click (host : Host) (fallback record script url : Value) : Clicked :=
  if !script.isVacant then
    let r := run host fallback record script
    ⟨r.effects, r.record, r.page, r.conclusion.outcome⟩
  else if !url.isVacant then navigate host.toPage record url
  else { record, page := host.toPage, outcome := .ok ⟨.nothing, []⟩ }

/-- The outcome of a click on a button that is not there. -/
def missed (index : Int) : Outcome :=
  ⟨.nothing, [⟨"CLICK_INDEX_INVALID", "no button at index", "index",
    some ("index", .int index)⟩]⟩

end Toolbar.Action
