/-
# `Toolbar.Method.OfText` — methods of texts

Positions count characters.  `substring` clamps both ends to the text and swaps them when they are
reversed, `slice` counts a negative end from the end of the text and is empty when the ends are
reversed, `charAt` is empty outside the text, and padding repeats its filling from the left.
-/
import Toolbar.Method.Arguments
import Toolbar.Text.Case
import Toolbar.Text.Blank

namespace Toolbar.Method

open Text

/-- An integer moved into the range from zero to `size`. -/
def clamp (size : Nat) (i : Int) : Nat :=
  min i.toNat size

/-- A position from the start, or from the end when it is negative, moved into the text. -/
def slicePosition (size : Nat) (i : Int) : Nat :=
  if i < 0 then clamp size (i + size) else clamp size i

/-- The characters from position `i` up to position `j`. -/
def between (i j : Nat) (cs : List Char) : List Char :=
  (cs.take j).drop i

def substring (cs : List Char) (i j : Int) : List Char :=
  let a := clamp cs.length i
  let b := clamp cs.length j
  between (min a b) (max a b) cs

def slice (cs : List Char) (i j : Int) : List Char :=
  between (slicePosition cs.length i) (slicePosition cs.length j) cs

def charAt (cs : List Char) (i : Int) : List Char :=
  if i < 0 then [] else (cs[i.toNat]?).toList

/-- `count` characters of the endless repetition of `fill`. -/
def filling (fill : List Char) (count : Nat) : List Char :=
  ((List.replicate (count / fill.length + 1) fill).flatten).take count

/-- The filling that a text needs to reach a length; none when the filling is empty. -/
def padding (cs fill : List Char) (length : Int) : List Char :=
  if fill.isEmpty then [] else filling fill (length - cs.length).toNat

def padStart (cs fill : List Char) (length : Int) : List Char :=
  padding cs fill length ++ cs

def padEnd (cs fill : List Char) (length : Int) : List Char :=
  cs ++ padding cs fill length

/-- The text `count` times; no text when the count is negative. -/
def repeated (cs : List Char) (count : Int) : Except Fault (List Char) :=
  if count < -countLimit ∨ countLimit ≤ count then .error .outOfRange
  else .ok (if cs.isEmpty then [] else (List.replicate count.toNat cs).flatten)

/-- Padding within the count that a text may be repeated. -/
def padded (pad : List Char → List Char → Int → List Char) (cs : List Char)
    (length fill : Value) : Result := do
  let fill ← fill.plainText
  let length ← intArg length
  if fill.toList.isEmpty = false ∧ countLimit ≤ length - cs.length then .error .outOfRange
  else return .text (String.ofList (pad cs fill.toList length))

/-- The pieces between the occurrences of a separator; all characters when it is empty, the text
alone when it is null. -/
def split (cs : List Char) : Value → Result
  | .null => .ok (.list [.text (String.ofList cs)])
  | .text sep =>
      let pieces := if sep.isEmpty then cs.map (fun c => [c]) else splitOn sep.toList cs
      .ok (.list (pieces.map fun p => .text (String.ofList p)))
  | _ => .error .unsuitable

/-- A method that asks whether or where the text of its argument occurs. -/
def search (ask : List Char → Value) (arg : Value) : Result := do
  let part ← arg.plainText
  return ask part.toList

/-- A method that replaces the text of its first argument by the display of its second. -/
def replacing (run : List Char → List Char → List Char) (old new : Value) : Result := do
  let old ← old.plainText
  let new ← new.display
  return .text (String.ofList (run old.toList new.toList))

/-- The number of characters before an occurrence, `-1` when there is none. -/
def indexOf (part cs : List Char) : Int :=
  match find? part cs with
  | some n => n
  | none => -1

/-- The methods of a text. -/
def ofText (s : String) : List (String × (List Value → Result)) :=
  let cs := s.toList
  let text (t : List Char) : Value := .text (String.ofList t)
  [("toUpperCase", noArgs (.ok (text (upper cs)))),
    ("toLowerCase", noArgs (.ok (text (lower cs)))),
    ("trim", noArgs (.ok (text (trim cs)))),
    ("trimStart", noArgs (.ok (text (trimStart cs)))),
    ("trimEnd", noArgs (.ok (text (trimEnd cs)))),
    ("substring", maybeTwoArgs (.int 0) .null fun a b => do
      let i ← intArg a
      let j ← if b.isNull then pure (cs.length : Int) else intArg b
      return text (substring cs i j)),
    ("slice", maybeTwoArgs (.int 0) .null fun a b => do
      let i ← intArg a
      let j ← if b.isNull then pure (cs.length : Int) else intArg b
      return text (slice cs i j)),
    ("charAt", maybeArg (.int 0) fun a => do
      let i ← intArg a
      return text (charAt cs i)),
    ("indexOf", oneArg (search fun p => .int (indexOf p cs))),
    ("includes", oneArg (search fun p => .bool (occursIn p cs))),
    ("startsWith", oneArg (search fun p => .bool (startsWith p cs))),
    ("endsWith", oneArg (search fun p => .bool (endsWith p cs))),
    ("replace", oneMaybeArg (.text "") (replacing fun old new => replaceFirst old new cs)),
    ("replaceAll", oneMaybeArg (.text "") (replacing fun old new => replaceAll old new cs)),
    ("split", maybeArg .null (split cs)),
    ("padStart", oneMaybeArg (.text " ") (padded padStart cs)),
    ("padEnd", oneMaybeArg (.text " ") (padded padEnd cs)),
    ("repeat", oneArg fun n => do
      let n ← intArg n
      return text (← repeated cs n)),
    ("length", noArgs (.ok (.int cs.length))),
    ("toString", noArgs (.ok (.text s))),
    ("valueOf", noArgs (.ok (.text s)))]

end Toolbar.Method
