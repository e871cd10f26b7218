/-
# `Toolbar.Cache.Basic` — the entries of a cache

A cache has at most one entry for a key: the mark of the load that is under way, or the record
that was fetched, which may be none.  Marks are never used twice, so a load that ends can tell
whether the entry is still its own: only then does it store its record, or take its mark away
when it failed. The entry of a key is the view through which every operation is described
(`Cache.get?`).
-/
import Toolbar.Keyed

namespace Toolbar

/-- What a cache holds for a key. -/
inductive Cache.Entry (ρ : Type) where
  | loading (mark : Nat)
  | ready (record : Option ρ)
deriving DecidableEq, Repr

/-- Fetched records and loads under way, by key; `nextMark` is above every mark in use. -/
structure Cache (ρ : Type) where
  entries : List (String × Cache.Entry ρ) := []
  nextMark : Nat := 0

namespace Cache

variable {ρ : Type}

/-- The entry of a key. -/
def get? (c : Cache ρ) (key : String) : Option (Entry ρ) :=
  c.entries.lookup key

/-- Whether there is an entry for a key. -/
def contains (c : Cache ρ) (key : String) : Bool :=
  (c.get? key).isSome

/-- The record of a key, when one was fetched. -/
def record? (c : Cache ρ) (key : String) : Option ρ :=
  match c.get? key with
  | some (.ready r) => r
  | _ => none

/-- Whether a load of the key is under way. -/
def isLoading (c : Cache ρ) (key : String) : Bool :=
  match c.get? key with
  | some (.loading _) => true
  | _ => false

/-- What a cache tells about a key. -/
inductive Status (ρ : Type) where
  | missing
  | pending
  | ready (record : Option ρ)
deriving DecidableEq, Repr

/-- What the cache tells about a key. -/
def status (c : Cache ρ) (key : String) : Status ρ :=
  match c.get? key with
  | none => .missing
  | some (.loading _) => .pending
  | some (.ready r) => .ready r

/-- Entries without those of a key. -/
def without (key : String) (entries : List (String × Entry ρ)) : List (String × Entry ρ) :=
  entries.filter fun e => e.1 != key

/-- The cache without an entry for a key. -/
def erase (c : Cache ρ) (key : String) : Cache ρ :=
  { c with entries := without key c.entries }

/-- The cache with `entry` for a key, in place of any other. -/
def set (c : Cache ρ) (key : String) (entry : Entry ρ) : Cache ρ :=
  { c with entries := (key, entry) :: without key c.entries }

/-- The cache with a record for a key, whatever was there. -/
def put (c : Cache ρ) (key : String) (record : Option ρ) : Cache ρ :=
  c.set key (.ready record)

/-- The cache without entries for the keys, and how many there were. -/
def invalidate (c : Cache ρ) : List String → Cache ρ × Nat
  | [] => (c, 0)
  | key :: keys =>
      let (rest, count) := (c.erase key).invalidate keys
      (rest, if c.contains key then count + 1 else count)

/-- The cache without entries. -/
def clear (c : Cache ρ) : Cache ρ :=
  { c with entries := [] }

/-- A new mark for a key, whatever was there. -/
def claim (c : Cache ρ) (key : String) : Cache ρ × Nat :=
  ({ c.set key (.loading c.nextMark) with nextMark := c.nextMark + 1 }, c.nextMark)

/-- Whether the entry of a key is this mark. -/
def holds (c : Cache ρ) (key : String) (mark : Nat) : Bool :=
  match c.get? key with
  | some (.loading m) => m == mark
  | _ => false

/-- The cache after a load: the record is stored if the mark is still there. -/
def settle (c : Cache ρ) (key : String) (mark : Nat) (record : Option ρ) : Cache ρ :=
  if c.holds key mark then c.put key record else c

/-- The cache after a load without a record: the mark is taken away if it is still there. -/
def abandon (c : Cache ρ) (key : String) (mark : Nat) : Cache ρ :=
  if c.holds key mark then c.erase key else c

/-! ## The entry of a key after each operation -/

theorem lookup_without (key k : String) (entries : List (String × Entry ρ)) :
    (without key entries).lookup k = if k = key then none else entries.lookup k := by
  by_cases h : k = key
  · rw [if_pos h, h]
    exact Keyed.lookup_others_self key entries
  · rw [if_neg h]
    exact Keyed.lookup_others_of_ne h entries

theorem get?_set (c : Cache ρ) (key k : String) (entry : Entry ρ) :
    (c.set key entry).get? k = if k = key then some entry else c.get? k := by
  by_cases h : k = key
  · simp [get?, set, h]
  · have hb : (k == key) = false := beq_eq_false_iff_ne.mpr h
    simp [get?, set, List.lookup_cons, lookup_without, h, hb]

theorem get?_erase (c : Cache ρ) (key k : String) :
    (c.erase key).get? k = if k = key then none else c.get? k := by
  simp only [get?, erase, lookup_without]

theorem get?_put (c : Cache ρ) (key k : String) (record : Option ρ) :
    (c.put key record).get? k = if k = key then some (.ready record) else c.get? k :=
  get?_set c key k (.ready record)

@[simp] theorem get?_clear (c : Cache ρ) (k : String) : c.clear.get? k = none := rfl

theorem get?_invalidate (k : String) :
    ∀ (keys : List String) (c : Cache ρ),
      (c.invalidate keys).1.get? k = if k ∈ keys then none else c.get? k
  | [], c => by simp [invalidate]
  | key :: keys, c => by
      simp only [invalidate, get?_invalidate k keys (c.erase key), get?_erase, List.mem_cons]
      by_cases h : k = key <;> by_cases h' : k ∈ keys <;> simp [h, h']

theorem get?_claim (c : Cache ρ) (key k : String) :
    (c.claim key).1.get? k = if k = key then some (.loading c.nextMark) else c.get? k :=
  get?_set c key k (.loading c.nextMark)

theorem holds_iff {c : Cache ρ} {key : String} {mark : Nat} :
    c.holds key mark = true ↔ c.get? key = some (.loading mark) := by
  unfold holds
  split
  next m h => simp [h]
  next h => exact ⟨fun h' => by simp at h', fun h' => absurd h' (h mark)⟩

theorem isLoading_iff {c : Cache ρ} {key : String} :
    c.isLoading key = true ↔ ∃ mark, c.get? key = some (.loading mark) := by
  unfold isLoading
  split
  next m h => simp [h]
  next h => exact ⟨fun h' => by simp at h', fun ⟨mark, h'⟩ => absurd h' (h mark)⟩

theorem record?_eq_some_iff {c : Cache ρ} {key : String} {record : ρ} :
    c.record? key = some record ↔ c.get? key = some (.ready (some record)) := by
  unfold record?
  split
  next r h => simp [h]
  next h => exact ⟨fun h' => by simp at h', fun h' => absurd h' (h (some record))⟩

theorem get?_settle (c : Cache ρ) (key k : String) (mark : Nat) (record : Option ρ) :
    (c.settle key mark record).get? k =
      if k = key ∧ c.holds key mark = true then some (.ready record) else c.get? k := by
  unfold settle
  split
  next h => simp [h, get?_put]
  next h => simp [h]

theorem get?_abandon (c : Cache ρ) (key k : String) (mark : Nat) :
    (c.abandon key mark).get? k =
      if k = key ∧ c.holds key mark = true then none else c.get? k := by
  unfold abandon
  split
  next h => simp [h, get?_erase]
  next h => simp [h]

/-- A load that has lost its mark changes nothing when it ends. -/
theorem settle_of_not_holds {c : Cache ρ} {key : String} {mark : Nat}
    (h : c.get? key ≠ some (.loading mark)) (record : Option ρ) :
    c.settle key mark record = c :=
  if_neg fun h' => h (holds_iff.mp h')

theorem abandon_of_not_holds {c : Cache ρ} {key : String} {mark : Nat}
    (h : c.get? key ≠ some (.loading mark)) : c.abandon key mark = c :=
  if_neg fun h' => h (holds_iff.mp h')

/-! ## Marks are handed out by claims alone -/

@[simp] theorem nextMark_put (c : Cache ρ) (key : String) (record : Option ρ) :
    (c.put key record).nextMark = c.nextMark := rfl

@[simp] theorem nextMark_erase (c : Cache ρ) (key : String) :
    (c.erase key).nextMark = c.nextMark := rfl

@[simp] theorem claim_mark (c : Cache ρ) (key : String) : (c.claim key).2 = c.nextMark := rfl

@[simp] theorem nextMark_claim (c : Cache ρ) (key : String) :
    (c.claim key).1.nextMark = c.nextMark + 1 := rfl

@[simp] theorem nextMark_invalidate :
    ∀ (keys : List String) (c : Cache ρ), (c.invalidate keys).1.nextMark = c.nextMark
  | [], _ => rfl
  | key :: keys, c => (nextMark_invalidate keys (c.erase key)).trans (nextMark_erase c key)

@[simp] theorem nextMark_settle (c : Cache ρ) (key : String) (mark : Nat) (record : Option ρ) :
    (c.settle key mark record).nextMark = c.nextMark := by
  unfold settle
  split <;> rfl

@[simp] theorem nextMark_abandon (c : Cache ρ) (key : String) (mark : Nat) :
    (c.abandon key mark).nextMark = c.nextMark := by
  unfold abandon
  split <;> rfl

end Cache

/-! ## Scopes -/

/-- The keys that each scope has touched. -/
abbrev Scopes := List (Nat × List String)

namespace Scopes

/-- The keys that a scope has touched. -/
def keys (s : Scopes) (scope : Nat) : List String :=
  (s.lookup scope).getD []

/-- The scopes with the keys of one replaced. -/
def set (s : Scopes) (scope : Nat) (keys : List String) : Scopes :=
  (scope, keys) :: s.filter fun e => e.1 != scope

/-- The scopes after one of them has touched a key. -/
def touch (s : Scopes) (scope : Nat) (key : String) : Scopes :=
  let keys := s.keys scope
  s.set scope (if keys.contains key then keys else keys ++ [key])

/-! ### The keys of a scope after each operation -/

theorem keys_set (s : Scopes) (scope m : Nat) (keys : List String) :
    (s.set scope keys).keys m = if m = scope then keys else s.keys m := by
  by_cases h : m = scope
  · simp [Scopes.keys, set, h]
  · have hm : (m == scope) = false := beq_eq_false_iff_ne.mpr h
    simp only [Scopes.keys, set, List.lookup_cons, hm, Keyed.lookup_others_of_ne h, if_neg h]

theorem keys_touch_of_ne {scope m : Nat} (h : m ≠ scope) (s : Scopes) (key : String) :
    (s.touch scope key).keys m = s.keys m := by
  simp [touch, keys_set, h]

theorem mem_keys_touch (s : Scopes) (scope : Nat) (key k : String) :
    k ∈ (s.touch scope key).keys scope ↔ k = key ∨ k ∈ s.keys scope := by
  simp only [touch, keys_set, if_true]
  split
  next h =>
    have hmem : key ∈ s.keys scope := by simpa using h
    exact ⟨Or.inr, fun hk => hk.elim (fun he => he ▸ hmem) id⟩
  next => simp [or_comm]

end Scopes

end Toolbar
