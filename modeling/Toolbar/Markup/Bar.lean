/-
# `Toolbar.Markup.Bar` — the markup of buttons, messages and the bar

A button is an anchor or a button element whose skeleton depends only on whether it is shown as a
link and has a tooltip and an icon; its fields stand in it escaped.  In its place a template of the
page's own may be used; how such a template is read is not the bar's matter, and all there is of it
here is the markup that it makes in a context.  In a bar each button is shown on its own, and one
that cannot be shown becomes a notice.
-/
import Toolbar.Button.Config
import Toolbar.Markup.Escape

namespace Toolbar.Markup

/-- What a control shows while its buttons are not ready. -/
def loadingText : String := "Loading buttons..."

/-- What stands for a button that cannot be shown. -/
def buttonFaultText : String := "An error occurred while rendering this button."

/-- The markup of a message of a kind; an error is announced. -/
def messageOf (text : Value) (kind : String) : Except Fault String := do
  let shownText ← shown (plain text)
  let role := if kind == "error" then "alert" else "status"
  return "<div class=\"message-bar message-bar--" ++ escape kind ++ "\" role=\"" ++ role ++ "\">"
    ++ shownText ++ "</div>"

/-- The markup of a message that is a text. -/
def message (text kind : String) : String :=
  let role := if kind == "error" then "alert" else "status"
  "<div class=\"message-bar message-bar--" ++ escape kind ++ "\" role=\"" ++ role ++ "\">"
    ++ escape text ++ "</div>"

/-- The field of a button, which must be there. -/
def buttonField (button : Value) (key : String) : Except Fault Value :=
  match button with
  | .map fields => match Fields.get? key fields with
      | some v => .ok v
      | none => .error .undefined
  | _ => .error .undefined

/-- The escaped field of a button. -/
def slot (button : Value) (key : String) : Except Fault String := do
  let v ← buttonField button key
  shown v

/-- A part of the markup that is there when a field is not vacant. -/
def whenField (button : Value) (key : String) (before after : String) : Except Fault String := do
  let v ← buttonField button key
  if v.isVacant then return ""
  else
    let s ← shown v
    return before ++ s ++ after

/-- The markup of a link. -/
def link (button : Value) : Except Fault String := do
  let url ← slot button "url"
  let tooltip ← whenField button "tooltip" " title=\"" "\""
  let label ← slot button "label"
  return "<a class=\"smart-button-link\" href=\"" ++ url
    ++ "\" target=\"_blank\" rel=\"noopener noreferrer\"" ++ tooltip ++ ">" ++ label ++ "</a>"

/-- The markup of a button element. -/
def element (button index : Value) : Except Fault String := do
  let index ← shown index
  let tooltip ← whenField button "tooltip" " title=\"" "\""
  let icon ← whenField button "icon" "<i class=\"smart-button-icon ms-Icon ms-Icon--"
    "\" aria-hidden=\"true\"></i>"
  let label ← slot button "label"
  return "<button type=\"button\" class=\"smart-button\" data-index=\"" ++ index ++ "\"" ++ tooltip
    ++ ">" ++ icon ++ "<span>" ++ label ++ "</span></button>"

/-- The markup of a button that is a plain value. -/
def plainButton (button index : Value) : Except Fault String := do
  let asLink ← buttonField button "show_as_link"
  if asLink.isVacant then element button index else link button

/-- A template of one's own: the markup that it makes in a plain context. -/
abbrev OwnTemplate := Value → Except Fault String

/-- The template of a text, none for an empty one. -/
def OwnTemplate.ofText (render : String → OwnTemplate) (text : String) : Option OwnTemplate :=
  if text.isEmpty then none else some (render text)

/-- The markup of a button, by a template of one's own if there is one. -/
def button (own : Option OwnTemplate) (b index : Value) : Except Fault String :=
  match own with
  | none => plainButton (plain b) (plain index)
  | some template => template (plain (.map [("button", b), ("index", index)]))

/-- The markup of a button, or the notice that stands for it. -/
def piece (own : Option OwnTemplate) (b : Value) (index : Nat) : String :=
  match button own b (.int index) with
  | .ok s => s
  | .error _ => message buttonFaultText "error"

/-- The pieces of the buttons from an index on. -/
def piecesFrom (own : Option OwnTemplate) (index : Nat) : List Value → List String
  | [] => []
  | b :: bs => piece own b index :: piecesFrom own (index + 1) bs

/-- The markup of the bar. -/
def bar (own : Option OwnTemplate) (buttons : List Value) : String :=
  "<div class=\"smart-button-bar\">" ++ String.join (piecesFrom own 0 buttons) ++ "</div>"

end Toolbar.Markup
