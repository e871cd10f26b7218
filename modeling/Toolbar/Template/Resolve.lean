/-
# `Toolbar.Template.Resolve` — texts with their references replaced

A reference is replaced by the display of its value, or by that of its method's result.  A reference
without a value stays as it is, so does the suffix of a method that no kind of value has.  A method
that the value does not have, or that fails, is left out and the value stands alone.  Each token is
replaced at every place where it stands in the text so far.
-/
import Toolbar.Method.Call
import Toolbar.Record.Resolution
import Toolbar.Template.Args
import Toolbar.Template.Token
import Toolbar.Value.Coerce

namespace Toolbar.Template

open Text

/-- The value of a path: a field of the base record, the key behind a lookup, or a field of the
record at the end of the chain. -/
def pathValue (path : List Char) : Resolution Value :=
  let p := Path.ofChars path
  .look fun base =>
    match base with
    | .map _ =>
        match p.lookups with
        | [] => .done (base.field (String.ofList path))
        | first :: _ =>
            if p.isId then .done (Value.ofText? (Lookup.id? base (String.ofList first)))
            else (Resolution.follow base (p.lookups.map String.ofList)).bind fun r =>
              .done (r.field (String.ofList p.final))
    | _ => .done .null

/-- The beginnings of the names of methods that want a stamp. -/
def stampMethods : List (List Char) :=
  ["get".toList, "toLocale".toList]

/-- The value that a method is called on: a text that looks like a stamp as a stamp, when the method
wants one. -/
def subject (method : List Char) (v : Value) : Value :=
  if v.looksLikeStamp && stampMethods.any (startsWith · method) then v.coerce else v

/-- The text that replaces a reference to a value that is not null. -/
def replacement (t : Token) (v : Value) : Except Fault String :=
  match t.method with
  | none => v.display
  | some method =>
      let name := String.ofList method
      if Method.isKnown name then
        let v := subject method v
        match Method.call? v name (Args.values (t.args.getD [])) with
        | some (.ok r) => r.display
        | _ => v.display
      else do
        let s ← v.display
        return s ++ String.ofList t.suffix

/-- The text with the references of `tokens` replaced one after the other; `known` holds the values
of the paths already looked up. -/
def substitute (known : List (List Char × Value)) (text : List Char) :
    List Token → ExceptT Fault Resolution (List Char)
  | [] => pure text
  | t :: ts => do
      let v ← match known.lookup t.path with
        | some v => pure v
        | none => ExceptT.lift (pathValue t.path)
      if v.isNull then substitute ((t.path, v) :: known) text ts
      else do
        let r ← liftExcept (replacement t v)
        substitute ((t.path, v) :: known) (replaceAll t.full r.toList text) ts
where
  liftExcept (r : Except Fault String) : ExceptT Fault Resolution String := ExceptT.mk (pure r)

/-- A text with its references replaced; a text without references stays as it is. -/
def resolveText (s : String) : ExceptT Fault Resolution String := do
  let tokens := Token.extract s.toList
  if tokens.isEmpty then return s
  else
    let cs ← substitute [] s.toList tokens
    return String.ofList cs

/-- A field of a configuration with its references replaced: a vacant value stays as it is, and a
value that is no text is a fault. -/
def resolve (v : Value) : ExceptT Fault Resolution Value := do
  if v.isVacant then return v
  else match v with
    | .text s => return .text (← resolveText s)
    | _ => throw .unsuitable

/-- Several fields of a configuration, in order. -/
def resolveAll : List Value → ExceptT Fault Resolution (List Value)
  | [] => pure []
  | v :: vs => do
      let r ← resolve v
      let rs ← resolveAll vs
      return r :: rs

end Toolbar.Template
