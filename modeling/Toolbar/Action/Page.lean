/-
# `Toolbar.Action.Page` — the page around the bar

A click reaches the page in two ways: it calls what the page offers as navigation, and it runs a
script over the record of the form and the context of the page.  What can be called, what a call
brings, how a script is compiled and what it then does are parameters:

    of the page       as the bar sees it
    an operation      an answer to its arguments: how the call ends, at once or once it was waited for
    a source text     a failure to compile it, or what it does to a record and a page
    a script's run    its effects, the record and the page that it leaves, and how it ends

A failure has a kind and a text, and asking for the text may fail in its turn.  What is no failure,
such as an exit or a cancellation, ends whatever it meets.  Calls are *effects*, listed in the order
in which they happen.  A call and a script are over before anything else happens.
-/
import Toolbar.Value.Surroundings

namespace Toolbar.Action

/-- A failure: its kind, and its text or the kind of what is raised in its place when the text is
asked for. -/
structure Raised where
  kind : String
  text : Except String String

/-- How a call or a script ends. -/
inductive Ending where
  | done
  | failed (e : Raised)
  /-- It is left by what is no failure, of that kind. -/
  | left (kind : String)

/-- What a call brings: how it ends, and whether it has to be waited for to end so. -/
structure Answer where
  ending : Ending := .done
  awaitable : Bool := false

/-- What happens to the page. -/
inductive Effect where
  | called (operation : Value) (arguments : List Value)

/-- A page: the surroundings that it gives, what can be called there, and what a call brings. -/
structure Page extends Surroundings where
  isCallable : Value → Bool := fun _ => false
  answer : Value → List Value → Answer := fun _ _ => {}

/-- What a script leaves. -/
structure Run where
  effects : List Effect := []
  record : Value
  page : Page
  ending : Ending := .done

/-- A page with a compiler of scripts.  What it compiles is the text of an operation over a record
and a context. -/
structure Host extends Page where
  compile : String → Except Raised (Value → Page → Run) := fun _ => .ok fun record page =>
    { record, page }

/-- The name of the kind of a value. -/
def kindOf : Value → String
  | .null => "NoneType"
  | .bool _ => "bool"
  | .num (.int _) => "int"
  | .num (.real _) => "float"
  | .text _ => "str"
  | .date _ => "datetime.date"
  | .stamp _ => "datetime.datetime"
  | .list _ => "list"
  | .map _ => "dict"
  | .routine _ => "builtin_function_or_method"
  | .object _ => "types.SimpleNamespace"

namespace Raised

/-- A failure with a text. -/
def ofText (kind text : String) : Raised :=
  ⟨kind, .ok text⟩

/-- A value is called that cannot be called. -/
def notCallable (v : Value) : Raised :=
  ofText "TypeError" ("'" ++ kindOf v ++ "' object is not callable")

end Raised

/-- What a call with one argument does and how it ends.  What it gives is waited for, if it has to
be. -/
def Page.call (page : Page) (f v : Value) : List Effect × Ending :=
  if page.isCallable f then ([.called f [v]], (page.answer f [v]).ending)
  else ([], .failed (.notCallable f))

/-- What stands under a name in the navigation of a page, if it can be called. -/
def Page.capability? (page : Page) (name : String) : Except Fault (Option Value) := do
  let navigation ← page.part page.context "navigation"
  if navigation.isNull then return none
  let f ← page.part navigation name
  return if page.isCallable f then some f else none

end Toolbar.Action
