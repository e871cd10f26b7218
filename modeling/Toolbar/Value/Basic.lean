/-
# `Toolbar.Value.Basic` — the values that records hold

A field of a record, an argument of a method and the result of an expression are values.  A map
keeps its keys in the order in which they were first set; a key that is set again keeps its place.
Routines and objects come from the page around the bar and are never stored; what can be read of
them, and what happens when one is called, is the page's matter.
Two notions of truth live here: a value is *vacant* when it counts as missing in a configuration,
and *truthy* when an expression takes it for true.  They differ on empty lists and maps and on NaN.
-/
import Toolbar.Calendar.Stamp
import Toolbar.Number.Basic

namespace Toolbar

/-- A value. -/
inductive Value where
  | null
  | bool (b : Bool)
  | num (n : Number)
  | text (s : String)
  | date (d : Date)
  | stamp (t : Stamp)
  | list (items : List Value)
  | map (fields : List (String × Value))
  /-- Something that can be called, known by a token that is also its text. -/
  | routine (token : String)
  /-- A thing with attributes, which are no keys. -/
  | object (attributes : List (String × Value))

instance : Inhabited Value := ⟨.null⟩

/-- The fields of a map or record, in order. -/
abbrev Fields := List (String × Value)

namespace Fields

/-- The value of a key. -/
def get? (key : String) : Fields → Option Value
  | [] => none
  | (k, v) :: rest => if k == key then some v else get? key rest

/-- The fields with `key` set to `value`: in its place, or at the end when it is new. -/
def set (key : String) (value : Value) : Fields → Fields
  | [] => [(key, value)]
  | (k, v) :: rest => if k == key then (key, value) :: rest else (k, v) :: set key value rest

theorem get?_set (key k : String) (value : Value) (fields : Fields) :
    (fields.set key value).get? k = if k = key then some value else fields.get? k := by
  induction fields with
  | nil =>
      by_cases hk : k = key
      · simp [set, get?, hk]
      · simp [set, get?, hk, Ne.symm hk]
  | cons field fields ih =>
      obtain ⟨k', v⟩ := field
      simp only [set]
      split
      next h =>
        have hk' : k' = key := by simpa using h
        by_cases hk : k = key
        · simp [get?, hk]
        · simp [get?, hk, hk', Ne.symm hk]
      next h =>
        have hk' : k' ≠ key := by simpa using h
        by_cases hk : k' = k
        · simp [get?, hk, hk ▸ hk']
        · simp [get?, hk, ih]

/-- The fields with all of `changes` set, in order. -/
def update (fields : Fields) (changes : Fields) : Fields :=
  changes.foldl (fun fs (k, v) => fs.set k v) fields

/-- Fields from pairs, later ones winning and keeping the first place of their key. -/
def ofPairs (pairs : List (String × Value)) : Fields :=
  update [] pairs

/-- Where each key has one value, its field has that value. -/
theorem get?_update_map (f : String → Value) (keys : List String) (k : String) (fields : Fields) :
    (fields.update (keys.map fun key => (key, f key))).get? k =
      if k ∈ keys then some (f k) else fields.get? k := by
  induction keys generalizing fields with
  | nil => rfl
  | cons key keys ih =>
      simp only [update, List.map_cons, List.foldl_cons] at ih ⊢
      rw [ih, get?_set]
      by_cases hk : k = key
      · simp [hk]
      · simp [hk]

end Fields

namespace Value

def int (i : Int) : Value := .num (.int i)
def real (x : Binary64) : Value := .num (.real x)

def isNull : Value → Bool
  | .null => true
  | _ => false

/-- The number that a value is when numbers and truth values are compared: true is one. -/
def asNumber? : Value → Option Number
  | .num n => some n
  | .bool b => some (.int (if b then 1 else 0))
  | _ => none

mutual
/-- Equality of values as parts: numbers and truth values by their number, stamps by the instant,
lists in order, maps and attributes without regard to order.  A value is equal to itself, a NaN
included. -/
def equals : Value → Value → Bool
  | .null, .null => true
  | .bool a, v => match v.asNumber? with
      | some n => Number.equals (.int (if a then 1 else 0)) n
      | none => false
  | .num a, v => match v.asNumber? with
      | some n => Number.same a n
      | none => false
  | .text a, .text b => a == b
  | .date a, .date b => a == b
  | .stamp a, .stamp b => a.sameInstant b
  | .list as, .list bs => allEqual as bs
  | .map as, .map bs => as.length == bs.length && allFound as bs
  | .routine a, .routine b => a == b
  | .object as, .object bs => as.length == bs.length && allFound as bs
  | _, _ => false
/-- Two lists are equal item by item. -/
def allEqual : List Value → List Value → Bool
  | [], [] => true
  | a :: as, b :: bs => equals a b && allEqual as bs
  | _, _ => false
/-- Every field of the first map has an equal field of the same key in the second. -/
def allFound : List (String × Value) → List (String × Value) → Bool
  | [], _ => true
  | (k, a) :: as, bs =>
      (match Fields.get? k bs with
        | some b => equals a b
        | none => false) && allFound as bs
end

/-- A value that counts as missing: null, false, zero, and the empty text, list or map. -/
def isVacant : Value → Bool
  | .null => true
  | .bool b => !b
  | .num n => n.isZero
  | .text s => s.isEmpty
  | .list items => items.isEmpty
  | .map fields => fields.isEmpty
  | _ => false

/-- A value that an expression takes for true: all but null, false, zero, NaN and the empty
text. -/
def truthy : Value → Bool
  | .null => false
  | .bool b => b
  | .num n => !n.isZero && !n.isNaN
  | .text s => !s.isEmpty
  | _ => true

/-- The fields of a map. -/
def fields? : Value → Option Fields
  | .map fields => some fields
  | _ => none

/-- The field of a map; null when the value is no map or has no such field. -/
def field (key : String) (v : Value) : Value :=
  match v with
  | .map fields => (Fields.get? key fields).getD .null
  | _ => .null

/-- The text that a value is. -/
def text? : Value → Option String
  | .text s => some s
  | _ => none

/-- A text, or null when there is none. -/
def ofText? : Option String → Value
  | some s => .text s
  | none => .null

end Value

end Toolbar
