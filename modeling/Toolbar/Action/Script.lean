/-
# `Toolbar.Action.Script` — running an action script

A script is compiled and run over the record of the form.  When it fails, its text is shown to the
user: by the alert of the page that the script left, or by a fallback when that page has no alert
that can be called.  A failure to show it is passed over.  A failure whose text cannot be had is not
shown, and neither is one after which the parts of the page cannot be read: what was raised there
gets out in its place.
-/
import Toolbar.Action.Page
import Toolbar.Action.Source

namespace Toolbar.Action

/-- What gets out of a script or a click. -/
inductive Escape where
  /-- What was raised, of that kind, where the text of a failure was asked for. -/
  | untold (kind : String)
  /-- What was raised where a part of the page was read. -/
  | unread (fault : Fault)
  /-- What is no failure, of that kind. -/
  | left (kind : String)
deriving DecidableEq, Repr

/-- The failure of a script that is no text. -/
def Raised.noText (v : Value) : Raised :=
  .ofText "TypeError" ("expected string or bytes-like object, got '" ++ kindOf v ++ "'")

/-- What a script does, if it can be compiled. -/
def action (host : Host) (script : Value) : Except Raised (Value → Page → Run) :=
  match script with
  | .text s => host.compile (Source.ofScript s)
  | v => if v.isVacant then host.compile (Source.ofScript "") else .error (.noText v)

/-- What a script leaves; nothing is done when it cannot be compiled. -/
def runScript (host : Host) (record script : Value) : Run :=
  match action host script with
  | .error e => { record, page := host.toPage, ending := .failed e }
  | .ok run => run record host.toPage

/-- The text that is shown for a failure, the name of its kind if it is empty. -/
def Raised.shown (e : Raised) : Except Escape String :=
  match e.text with
  | .ok text => .ok (if text.isEmpty then e.kind else text)
  | .error kind => .error (.untold kind)

/-- The title of the alert for a failure. -/
def alertTitle : String := "Error in Action Script"

/-- What a report does, and the text that it tells. -/
structure Report where
  effects : List Effect := []
  told : Except Escape String

/-- A report by a call with one argument, which tells its text however the call fails. -/
def Report.through (page : Page) (f v : Value) (text : String) : Report :=
  match page.call f v with
  | (effects, .left kind) => ⟨effects, .error (.left kind)⟩
  | (effects, _) => ⟨effects, .ok text⟩

/-- The report of a failure on a page: its alert if it has one, else the fallback if there is
one. -/
def report (page : Page) (fallback : Value) (e : Raised) : Report :=
  match e.shown with
  | .error escape => { told := .error escape }
  | .ok text => match page.capability? "open_alert_dialog" with
      | .error fault => { told := .error (.unread fault) }
      | .ok (some alert) =>
          .through page alert (.map [("text", .text text), ("title", .text alertTitle)]) text
      | .ok none =>
          if fallback.isNull then { told := .ok text } else .through page fallback (.text text) text

/-- How the run of a script concludes. -/
inductive Conclusion where
  | succeeded
  /-- The script failed, and the failure was reported with that text. -/
  | failed (e : Raised) (text : String)
  | escaped (e : Escape)

/-- What is left of a script and the report of its failure. -/
structure Ran where
  effects : List Effect
  record : Value
  page : Page
  conclusion : Conclusion

/-- Runs a script and reports its failure.  Where there is no record the script has an empty one for
itself. -/
def run (host : Host) (fallback record script : Value) : Ran :=
  let r := runScript host (if record.isNull then .map [] else record) script
  let after := if record.isNull then .null else r.record
  match r.ending with
  | .done => ⟨r.effects, after, r.page, .succeeded⟩
  | .left kind => ⟨r.effects, after, r.page, .escaped (.left kind)⟩
  | .failed e =>
      let report := report r.page fallback e
      ⟨r.effects ++ report.effects, after, r.page,
        match report.told with
        | .ok text => .failed e text
        | .error escape => .escaped escape⟩

/-- The code of a failed script. -/
def scriptCode : String := "ACTION_SCRIPT_ERROR"

end Toolbar.Action
