/-
# `Toolbar.Value.Canonical` — one text for each value

The canonical text is the record format without blanks and with the keys of every map in code-point
order, so two values have the same canonical text exactly when they differ in key order only.
Values that are not finite and values of the calendar have none.
-/
import Toolbar.Value.Display

namespace Toolbar.Value

open Text

/-- Texts in order, up to the first that is missing. -/
def sequence : List (Except Fault String) → Except Fault (List String)
  | [] => .ok []
  | t :: ts => do
      let s ← t
      let ss ← sequence ts
      return s :: ss

/-- Ordered pairs with one more put before all whose keys are not below its own. -/
def putKey {α : Type} (pair : String × α) : List (String × α) → List (String × α)
  | [] => [pair]
  | p :: ps => if pair.1 ≤ p.1 then pair :: p :: ps else p :: putKey pair ps

/-- Pairs in the order of their keys. -/
def sortKeys {α : Type} (pairs : List (String × α)) : List (String × α) :=
  pairs.foldr putKey []

mutual
/-- The canonical text of a value. -/
def canonical : Value → Except Fault String
  | .null => .ok "null"
  | .bool b => .ok (if b then "true" else "false")
  | .num (.int i) => match Number.intText? i with
      | some s => .ok s
      | none => .error .tooManyDigits
  | .num (.real x) => match x with
      | .finite _ _ _ => .ok x.shortestText
      | _ => .error .notFinite
  | .text s => .ok (recordQuoted s)
  | .list items => (sequence (canonicalItems items)).map fun ts => "[" ++ joined "," ts ++ "]"
  | .map fields =>
      (sequence ((sortKeys (canonicalFields fields)).map fun (k, t) =>
        t.map fun s => recordQuoted k ++ ":" ++ s)).map
          fun ts => "\x7b" ++ joined "," ts ++ "\x7d"
  | .date _ => .error (.noTextForm "date")
  | .stamp _ => .error (.noTextForm "datetime")
  | .routine _ => .error (.noTextForm "builtin_function_or_method")
  | .object _ => .error (.noTextForm "SimpleNamespace")
/-- The canonical texts of the items of a list. -/
def canonicalItems : List Value → List (Except Fault String)
  | [] => []
  | v :: vs => canonical v :: canonicalItems vs
/-- The canonical texts of the fields of a map, each with its key. -/
def canonicalFields : List (String × Value) → List (String × Except Fault String)
  | [] => []
  | (k, v) :: fs => (k, canonical v) :: canonicalFields fs
end

end Toolbar.Value
