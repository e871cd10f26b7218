/-
# `Toolbar.Markup.Escape` — text in markup

Five characters have a meaning in markup and are written as references wherever a value is put into
it.  A value is first made plain: stamps and dates become texts, and what is left is null, truth
values, numbers, texts, lists and maps.
-/
import Toolbar.Value.Display

namespace Toolbar.Markup

open Text

/-- What stands for one character in markup. -/
def escapeChar (c : Char) : List Char :=
  if c == '&' then "&amp;".toList
  else if c == '<' then "&lt;".toList
  else if c == '>' then "&gt;".toList
  else if c == '\'' then "&#39;".toList
  else if c == '"' then "&#34;".toList
  else [c]

/-- A text as it stands in markup. -/
def escape (s : String) : String :=
  String.ofList (s.toList.flatMap escapeChar)

mutual
/-- A value without stamps and dates. -/
def plain : Value → Value
  | .date d => .text d.display
  | .stamp t => .text t.plainText
  | .list items => .list (plainItems items)
  | .map fields => .map (plainFields fields)
  | v => v
def plainItems : List Value → List Value
  | [] => []
  | v :: vs => plain v :: plainItems vs
def plainFields : List (String × Value) → List (String × Value)
  | [] => []
  | (k, v) :: fs => (k, plain v) :: plainFields fs
end

/-- Why nothing can be shown. -/
inductive Fault where
  /-- A name or key that has no value. -/
  | undefined
  /-- An attribute or call that a template may not use. -/
  | forbidden
  /-- A filter that a template may not use. -/
  | unknownFilter
  /-- A text that is no template. -/
  | malformed
  /-- A value that has no text or no length. -/
  | value (fault : Toolbar.Fault)
deriving DecidableEq, Repr

/-- The text of a plain value. -/
def textOf (v : Value) : Except Fault String :=
  v.plainText.mapError .value

/-- A plain value as it stands in markup. -/
def shown (v : Value) : Except Fault String :=
  (textOf v).map escape

end Toolbar.Markup
