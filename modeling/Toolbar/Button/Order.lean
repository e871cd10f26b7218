/-
# `Toolbar.Button.Order` — buttons in the order of their positions

Positions are compared as numbers, texts, dates or lists, and two of different kinds have no order.
Sorting is stable: first the longest beginning that is already in order, or strictly in reverse
order, is taken, then each further button is put into its place by halving.
-/
import Toolbar.Button.Config

namespace Toolbar.Button

mutual
/-- Whether one value comes before another. -/
def before : Value → Value → Except Fault Bool
  | .num m, v => match v.asNumber? with
      | some n => .ok (m.compare? n == some .lt)
      | none => .error .unsuitable
  | .bool b, v => match v.asNumber? with
      | some n => .ok (Number.compare? (.int (if b then 1 else 0)) n == some .lt)
      | none => .error .unsuitable
  | .text s, .text t => .ok (s < t)
  | .date d, .date e => .ok (d.ordinal < e.ordinal)
  | .stamp s, .stamp t => match s.compare? t with
      | some o => .ok (o == .lt)
      | none => .error .unsuitable
  | .list as, .list bs => listBefore as bs
  | _, _ => .error .unsuitable
/-- Lists by their first items that differ; of two lists one of which begins with the other the
shorter comes first. -/
def listBefore : List Value → List Value → Except Fault Bool
  | [], [] => .ok false
  | [], _ :: _ => .ok true
  | _ :: _, [] => .ok false
  | a :: as, b :: bs => if a.equals b then listBefore as bs else before a b
end

section Sorting

variable {α : Type} (less : α → α → Except Fault Bool)

/-- The items that continue a run behind `last`, and the rest: each comes before the one in front of
it when `down`, and does not otherwise. -/
def runFrom (down : Bool) (last : α) : List α → Except Fault (List α × List α)
  | [] => .ok ([], [])
  | x :: xs => do
      if (← less x last) == down then
        let (run, rest) ← runFrom down x xs
        return (x :: run, rest)
      else return ([], x :: xs)

/-- A run with an item put behind all that it does not come before, by halving. -/
def insert (x : α) (run : List α) : Except Fault (List α) :=
  match _cut : run.drop (run.length / 2) with
  | [] => .ok [x]
  | y :: right => do
      if ← less x y then
        let left ← insert x (run.take (run.length / 2))
        return left ++ y :: right
      else
        let right ← insert x right
        return run.take (run.length / 2) ++ y :: right
termination_by run.length
decreasing_by
  all_goals
    have hl := congrArg List.length _cut
    simp only [List.length_drop, List.length_cons] at hl
    try simp only [List.length_take]
    omega

/-- A run with all further items put into their places. -/
def insertAll (run : List α) : List α → Except Fault (List α)
  | [] => .ok run
  | x :: xs => do
      let run ← insert less x run
      insertAll run xs

/-- The items in order. -/
def sort : List α → Except Fault (List α)
  | [] => .ok []
  | [x] => .ok [x]
  | x :: y :: rest => do
      let down ← less y x
      let (run, rest) ← runFrom less down y rest
      let run := x :: y :: run
      insertAll less (if down then run.reverse else run) rest

end Sorting

/-- Configurations in the order of their positions. -/
def sortByPosition (configs : List Config) : Except Fault (List Config) :=
  sort (fun a b => before a.position b.position) configs

end Toolbar.Button
