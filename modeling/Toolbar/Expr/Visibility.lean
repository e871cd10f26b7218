/-
# `Toolbar.Expr.Visibility` — the truth of an expression about a record

The fields that an expression refers to are collected first, each coerced to a stamp when it looks
like one, and the expression is then evaluated over them in its surroundings.  A path through a
lookup needs records that have to be fetched; a caller that cannot wait refuses every expression with
such a path.  No expression at all is true, and whatever fails is false.
-/
import Toolbar.Expr.Eval
import Toolbar.Template.Resolve

namespace Toolbar.Expr

/-- The paths that a text refers to, in order, repetitions kept. -/
def references (source : String) : List (List Char) :=
  (Token.extract source.toList).map (·.path)

/-- Whether a path goes through a lookup. -/
def isDotted (path : List Char) : Bool :=
  path.contains '.'

/-- The fields of a record that paths without a lookup name. -/
def collectNow (record : Value) (paths : List (List Char)) : Fields :=
  Fields.ofPairs <| (paths.filter (!isDotted ·)).map fun p =>
    (String.ofList p, (record.field (String.ofList p)).coerce)

/-- The fields that paths name, following lookups; `known` holds those already collected.  Without
`lookups` a path with points is the name of a field like any other. -/
def collectFrom (lookups : Bool) (known : Fields) : List (List Char) → Resolution Fields
  | [] => .done known
  | p :: ps =>
      let key := String.ofList p
      if (known.get? key).isSome then collectFrom lookups known ps
      else
        (if isDotted p && lookups then Template.pathValue p
          else .look fun base => .done (base.field key)).bind fun v =>
            collectFrom lookups (known.set key v.coerce) ps

/-- The fields that paths name, following lookups. -/
def collect (lookups : Bool) (paths : List (List Char)) : Resolution Fields :=
  collectFrom lookups [] paths

/-- The fields of a record, none when it is no record. -/
def recordFields (v : Value) : Fields :=
  v.fields?.getD []

/-- The truth of an expression about a record, without fetching. -/
def holdsNow (record : Value) (around : Surroundings) : Option String → Bool
  | none => true
  | some s =>
      if s.isEmpty then true
      else if (references s).any isDotted then false
      else holds ⟨around, collectNow record (references s), recordFields record⟩ (.text s)

/-- The truth of an expression about the base record. -/
def holdsFor (lookups : Bool) (around : Surroundings) (source : Value) : Resolution Bool :=
  if source.isVacant then .done true
  else match source with
    | .text s =>
        (collect lookups (references s)).bind fun data =>
          .look fun base => .done (holds ⟨around, data, recordFields base⟩ source)
    | _ => .done false

end Toolbar.Expr
