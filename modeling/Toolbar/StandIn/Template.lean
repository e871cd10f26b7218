/-
# `Toolbar.StandIn.Template` — a language for templates of one's own

The markup of a button may be made by a template of the page's own, in a language that is not the
bar's matter.  This is a small one that stands in for it where a bar runs by itself.

A template is text with slots `{{ expression }}`.  An expression is a name, a key or an attribute of
a name, or a call, with at most one filter behind a bar.  A name without a value may only be given a
default.  An attribute is a key of a map, unless values of that kind have an attribute of that name:
reading one is forbidden, and so is every call.  The value of a slot is escaped unless its filter
has done that.  Remarks `{# … #}` are left out.
-/
import Toolbar.StandIn.Reserved
import Toolbar.StandIn.Word
import Toolbar.Text.Case
import Toolbar.Text.Search
import Toolbar.Value.Pairs

namespace Toolbar.StandIn.Template

open Markup Text

/-- What a slot names. -/
inductive Subject where
  | name (n : String)
  | key (n k : String)
  | attribute (n k : String)
deriving DecidableEq, Repr

/-- What is done to the value of a slot. -/
inductive Filter where
  | upper
  | lower
  | trim
  | length
  | escape
  | default (other : String)
  | replace (old new : String)
  /-- A filter with other texts than it takes. -/
  | misapplied
  /-- A filter that templates may not use. -/
  | unknown
deriving DecidableEq, Repr

/-- A part of a template. -/
inductive Part where
  | text (s : String)
  | slot (subject : Subject) (called : Bool) (filter : Option Filter)
deriving DecidableEq, Repr

/-! ## Reading -/

/-- The texts between parentheses, of which the opening one is read; a comma may stand before the
closing one. -/
def arguments? : List Word → Option (List String)
  | [.mark ')'] => some []
  | [.text s, .mark ')'] => some [s]
  | .text s :: .mark ',' :: rest => (arguments? rest).map (s :: ·)
  | _ => none

/-- The texts that a filter is given. -/
def given? : List Word → Option (List String)
  | [] => some []
  | .mark '(' :: rest => arguments? rest
  | _ => none

/-- The names of the filters that templates may use. -/
def filterNames : List String :=
  ["default", "e", "escape", "length", "lower", "replace", "trim", "upper"]

/-- The filter of a name with the texts that it is given. -/
def Filter.of (name : String) (texts : List String) : Filter :=
  match name, texts with
  | "upper", [] => .upper
  | "lower", [] => .lower
  | "trim", [] => .trim
  | "length", [] => .length
  | "escape", [] | "e", [] => .escape
  | "default", [] => .default ""
  | "default", [s] => .default s
  | "replace", [old, new] => .replace old new
  | name, _ => if filterNames.contains name then .misapplied else .unknown

/-- The filter that a list of words is. -/
def filter? : List Word → Except Markup.Fault Filter
  | .name n :: rest =>
      match given? rest with
      | some texts => .ok (.of n texts)
      | none => .error .malformed
  | _ => .error .malformed

/-- A subject at the beginning of a list of words, whether it is called, and what follows.  The word
`not` names nothing. -/
def subject? : List Word → Except Markup.Fault (Subject × Bool × List Word)
  | .name "not" :: _ => .error .malformed
  | .name n :: .mark '[' :: .text k :: .mark ']' :: rest => .ok (.key n k, false, rest)
  | .name n :: .mark '.' :: .name k :: .mark '(' :: .mark ')' :: rest =>
      .ok (.attribute n k, true, rest)
  | .name n :: .mark '.' :: .name k :: rest => .ok (.attribute n k, false, rest)
  | .name n :: .mark '(' :: .mark ')' :: rest => .ok (.name n, true, rest)
  | .name n :: rest => .ok (.name n, false, rest)
  | _ => .error .malformed

/-- The slot that a list of words is. -/
def slot (ws : List Word) : Except Markup.Fault Part := do
  let (subject, called, rest) ← subject? ws
  match rest with
  | [] => return .slot subject called none
  | .mark '|' :: rest =>
      let f ← filter? rest
      return .slot subject called (some f)
  | _ => .error .malformed

/-- The number of characters up to behind the end of a remark, none without an end.  A dash before
the end takes the blanks behind it away. -/
def remarkLength? : List Char → Option Nat
  | [] => none
  | '-' :: '#' :: '\x7d' :: cs => some (3 + (cs.takeWhile isBlank).length)
  | '#' :: '\x7d' :: _ => some 2
  | _ :: cs => (remarkLength? cs).map (· + 1)

/-- The text before an opening, and the number of characters of the sign behind it: a dash takes the
blanks at the end of the text away.  The text is read backwards. -/
def beforeSign (text : List Char) : List Char → List Char × Nat
  | '-' :: _ => (text.dropWhile isBlank, 1)
  | '+' :: _ => (text, 1)
  | _ => (text, 0)

/-- The parts of a template whose current text, read backwards, is `text`, and of which the first
`skip` characters belong to a slot or a remark already found. -/
def partsFrom (text : List Char) (skip : Nat) : List Char → Except Markup.Fault (List Part)
  | [] => .ok [.text (String.ofList text.reverse)]
  | c :: cs =>
      match skip with
      | k + 1 => partsFrom text k cs
      | 0 =>
          if c == '\x7b' && cs.head? == some '\x7b' then do
            let (text, sign) := beforeSign text (cs.drop 1)
            let (ws, n) ← Word.ofSlot [] 0 (cs.drop (1 + sign))
            let p ← slot ws
            let ps ← partsFrom [] (1 + sign + n) cs
            return .text (String.ofList text.reverse) :: p :: ps
          else if c == '\x7b' && cs.head? == some '#' then
            let (text, sign) := beforeSign text (cs.drop 1)
            match remarkLength? (cs.drop (1 + sign)) with
            | none => .error .malformed
            | some n => do
                let ps ← partsFrom [] (1 + sign + n) cs
                return .text (String.ofList text.reverse) :: ps
          else if c == '\x7b' && cs.head? == some '%' then .error .malformed
          else partsFrom (c :: text) 0 cs

/-- Line ends as line feeds. -/
def plainLines : List Char → List Char
  | [] => []
  | '\r' :: '\n' :: cs => '\n' :: plainLines cs
  | '\r' :: cs => '\n' :: plainLines cs
  | c :: cs => c :: plainLines cs

/-- Without one line feed at the end. -/
def dropLastLineEnd (cs : List Char) : List Char :=
  if cs.getLast? == some '\n' then cs.dropLast else cs

/-- Whether a part asks for a filter that templates may not use. -/
def Part.isRefused : Part → Bool
  | .slot _ _ (some .unknown) => true
  | _ => false

/-- The parts of a template; one that cannot be read is told before one that is refused. -/
def parts (template : String) : Except Markup.Fault (List Part) := do
  let ps ← partsFrom [] 0 (dropLastLineEnd (plainLines template.toList))
  if ps.any Part.isRefused then throw .unknownFilter else return ps

/-! ## Rendering -/

/-- The value of a slot before its filter: a value, or why there is none. -/
abbrev Found := Except Markup.Fault Value

/-- What a template is for itself. -/
def selfReference : Value :=
  .routine "<TemplateReference None>"

/-- The names that stand for a value of their own. -/
def constant? (n : String) : Option Value :=
  if n == "true" || n == "True" then some (.bool true)
  else if n == "false" || n == "False" then some (.bool false)
  else if n == "none" || n == "None" then some .null
  else if n == "self" then some selfReference
  else none

/-- The value of a name. -/
def named (context : Fields) (n : String) : Found :=
  match constant? n with
  | some v => .ok v
  | none =>
      match context.get? n with
      | some v => .ok v
      | none => .error .undefined

/-- The value of a key of a map. -/
def keyOf? (v : Value) (k : String) : Option Value :=
  match v with
  | .map fields => Fields.get? k fields
  | _ => none

/-- The value of a subject.  A name without a value fails at once when something of it is read,
which the outer result tells; the inner one fails only when the value is used. -/
def find (context : Fields) : Subject → Except Markup.Fault Found
  | .name n => .ok (named context n)
  | .key n k => do
      let v ← named context n
      match keyOf? v k with
      | some w => return .ok w
      | none => return .error (if isReserved v k then .forbidden else .undefined)
  | .attribute n k =>
      match named context n with
      | .error f => if reservedByMissing.contains k then .ok (.error .forbidden) else .error f
      | .ok v =>
          if isReserved v k then .ok (.error .forbidden)
          else match keyOf? v k with
            | some w => .ok (.ok w)
            | none => .ok (.error .undefined)

/-- The number of characters, items or keys of a value. -/
def lengthOf : Value → Except Markup.Fault Nat
  | .text s => .ok s.length
  | .list items => .ok items.length
  | .map fields => .ok fields.length
  | _ => .error (.value .unsuitable)

/-- The text of a value with a change made to it, in markup. -/
def changed (change : List Char → List Char) (v : Value) : Except Markup.Fault String := do
  let s ← textOf v
  return escape (String.ofList (change s.toList))

/-- A value with a filter applied, in markup. -/
def filtered (found : Found) : Filter → Except Markup.Fault String
  | .upper => found.bind (changed Text.upper)
  | .lower => found.bind (changed Text.lower)
  | .trim => found.bind (changed Text.trim)
  | .length => do
      let v ← found
      let n ← lengthOf v
      return toString n
  | .escape => found.bind shown
  | .default other =>
      match found with
      | .ok v => shown v
      | .error _ => .ok (Markup.escape other)
  | .replace old new => found.bind (changed (replaceAll old.toList new.toList))
  | .misapplied => .error (.value .unsuitable)
  | .unknown => .error .unknownFilter

/-- Why a call fails: it is forbidden, but what is called has to have a literal to say so. -/
def refusal : Found → Except Markup.Fault String
  | .ok v => if (v.literal?).isNone then .error (.value .tooManyDigits) else .error .forbidden
  | .error _ => .error .forbidden

/-- The markup of a part. -/
def renderPart (context : Fields) : Part → Except Markup.Fault String
  | .text s => .ok s
  | .slot subject called filter => do
      let found ← find context subject
      if called then refusal found
      else match filter with
        | none => found.bind shown
        | some f => filtered found f

/-- The markup of parts, one after the other. -/
def renderParts (context : Fields) : List Part → Except Markup.Fault String
  | [] => .ok ""
  | p :: ps => do
      let s ← renderPart context p
      let rest ← renderParts context ps
      return s ++ rest

/-- The names and values that a context gives; one that is vacant gives none. -/
def contextFields (context : Value) : Except Markup.Fault Fields :=
  if context.isVacant then .ok []
  else
    let (fields, result) := Fields.setPairs [] context.pairs
    (result.mapError .value).map fun () => fields

/-- The markup of a template in a plain context. -/
def render (template : String) (context : Value) : Except Markup.Fault String := do
  let ps ← parts template
  let fields ← contextFields context
  renderParts fields ps

end Toolbar.StandIn.Template
