/-
# `Toolbar.Value.Pairs` — maps from pairs

Where a map is wanted, a list of pairs will do.  A pair is a list of two items, a text of two
characters or a map of two keys, and its first part has to be a text.
-/
import Toolbar.Value.Basic

namespace Toolbar

/-- The key and the value that an item of a list of pairs stands for. -/
def Value.pair : Value → Except Fault (String × Value)
  | .list [.text k, v] => .ok (k, v)
  | .list [_, _] => .error .unsuitable
  | .list _ => .error .malformed
  | .text s => match s.toList with
      | [a, b] => .ok (String.ofList [a], .text (String.ofList [b]))
      | _ => .error .malformed
  | .map [(a, _), (b, _)] => .ok (a, .text b)
  | .map _ => .error .malformed
  | _ => .error .unsuitable

/-- The pairs that a value stands for, one after the other; the items of a text are its
characters. -/
def Value.pairs : Value → List (Except Fault (String × Value))
  | .map fields => fields.map .ok
  | .list items => items.map pair
  | .text s => s.toList.map fun c => pair (.text (String.ofList [c]))
  | _ => [.error .unsuitable]

/-- The fields with pairs set, up to the first that is none. -/
def Fields.setPairs (fields : Fields) :
    List (Except Fault (String × Value)) → Fields × Except Fault Unit
  | [] => (fields, .ok ())
  | .error f :: _ => (fields, .error f)
  | .ok (k, v) :: rest => setPairs (fields.set k v) rest

end Toolbar
