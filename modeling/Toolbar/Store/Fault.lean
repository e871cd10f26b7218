/-
# `Toolbar.Store.Fault` — why a store has no answer

A store refuses with a code and a message, and possibly the status of the service behind it, or it
breaks down with a fault of some kind.  The text of a fault is what is shown for it; a fault without
a message has none, and a missing key shows its key in quotation marks.  Every fault has a text here:
faults of a store that fail in their turn when their text is asked for are left out.
-/
import Toolbar.Text.Quoted

namespace Toolbar

/-- Why a store has no answer. -/
inductive StoreFault where
  | refused (code message : String) (status : Option Int)
  | broken (kind : String) (message : Option String)
deriving DecidableEq, Repr

namespace StoreFault

/-- The code for a record that does not exist. -/
def notFoundCode : String := "DATASTORE_NOT_FOUND"

/-- The code for a status that tells of a fault. -/
def statusCode : String := "DATASTORE_HTTP_ERROR"

/-- The code for an answer of the wrong shape. -/
def badAnswerCode : String := "DATASTORE_BAD_RESPONSE"

/-- The code for a service that cannot be reached. -/
def unavailableCode : String := "DATASTORE_UNAVAILABLE"

/-- The refusal of a record that does not exist. -/
def notFound (entity id : String) : StoreFault :=
  .refused notFoundCode (entity ++ " " ++ id ++ " not found") (some 404)

/-- The text of a fault. -/
def text : StoreFault → String
  | refused code message none => code ++ ": " ++ message
  | refused code message (some n) =>
      code ++ ": " ++ message ++ " (status=" ++ toString n ++ ")"
  | broken _ none => ""
  | broken kind (some m) => if kind == "KeyError" then Text.quoted m else m

end StoreFault

end Toolbar
