/-
# `Toolbar.Text.Search` — finding, splitting and replacing a text in a text

Occurrences are taken from the left and do not overlap.  The empty text occurs before every
character and at the end, so replacing it inserts.
-/

namespace Toolbar.Text

/-- What is left of `cs` behind `part`, when `cs` begins with it. -/
def dropPart? : List Char → List Char → Option (List Char)
  | [], cs => some cs
  | _ :: _, [] => none
  | p :: ps, c :: cs => if p == c then dropPart? ps cs else none

theorem dropPart?_eq_some {part cs rest : List Char} :
    dropPart? part cs = some rest ↔ cs = part ++ rest := by
  induction part generalizing cs with
  | nil => simp [dropPart?]
  | cons p ps ih =>
      cases cs with
      | nil => simp [dropPart?]
      | cons c cs =>
          by_cases h : p = c
          · simp [dropPart?, h, ih]
          · simp [dropPart?, h, Ne.symm h]

def startsWith (part cs : List Char) : Bool :=
  (dropPart? part cs).isSome

theorem startsWith_iff {part cs : List Char} :
    startsWith part cs = true ↔ ∃ rest, cs = part ++ rest := by
  simp only [startsWith, Option.isSome_iff_exists, dropPart?_eq_some]

def endsWith (part cs : List Char) : Bool :=
  startsWith part.reverse cs.reverse

/-- The number of characters before the first occurrence of `part`. -/
def find? (part : List Char) : List Char → Option Nat
  | [] => if part.isEmpty then some 0 else none
  | c :: cs => if startsWith part (c :: cs) then some 0 else (find? part cs).map (· + 1)

def occursIn (part cs : List Char) : Bool :=
  (find? part cs).isSome

/-- The pieces of a text between the occurrences of `sep`, which is not empty; `piece` holds the
current piece backwards and `skip` counts the characters of an occurrence still to be passed. -/
def splitFrom (sep : List Char) (piece : List Char) (skip : Nat) : List Char → List (List Char)
  | [] => [piece.reverse]
  | c :: cs =>
      match skip with
      | k + 1 => splitFrom sep piece k cs
      | 0 =>
          if startsWith sep (c :: cs) then piece.reverse :: splitFrom sep [] (sep.length - 1) cs
          else splitFrom sep (c :: piece) 0 cs

/-- The pieces of a text between the occurrences of a separator that is not empty. -/
def splitOn (sep cs : List Char) : List (List Char) :=
  splitFrom sep [] 0 cs

/-- The text with `mid` between each two pieces. -/
def joinWith (mid : List Char) : List (List Char) → List Char
  | [] => []
  | [p] => p
  | p :: q :: ps => p ++ mid ++ joinWith mid (q :: ps)

/-- Every occurrence of `old` replaced by `new`. -/
def replaceAll (old new cs : List Char) : List Char :=
  if old.isEmpty then new ++ cs.flatMap (fun c => c :: new) else joinWith new (splitOn old cs)

/-- The first occurrence of `old` replaced by `new`. -/
def replaceFirst (old new : List Char) : List Char → List Char
  | [] => if old.isEmpty then new else []
  | c :: cs =>
      match dropPart? old (c :: cs) with
      | some rest => new ++ rest
      | none => c :: replaceFirst old new cs

/-- The text before the first `sep` and the text behind it. -/
def cutAt? (sep : Char) : List Char → Option (List Char × List Char)
  | [] => none
  | c :: cs =>
      if c == sep then some ([], cs) else (cutAt? sep cs).map (fun (l, r) => (c :: l, r))

/-- A text between each two of which stands `mid`. -/
def joined (mid : String) (parts : List String) : String :=
  String.ofList (joinWith mid.toList (parts.map String.toList))

end Toolbar.Text
