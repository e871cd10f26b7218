/-
# `Toolbar.Proofs.Session.FixedStore` — a store whose answers do not change

A store is fixed when it has one answer for each entity and id, a record or a fault, and the same
record, or none, for two pairs with one key.  How the machine sees it is a supplier, and a reply to
each request that was held back.  Which pauses and requests are over at once is left open, and so is
what a store writes down; what it hands out lies on the shelf, and stays there as it is.
-/
import Toolbar.Session.Basic

namespace Toolbar

namespace Shelf

/-- All records of a shelf lie at their places on another. -/
def Within (s t : Shelf) : Prop :=
  s.records <+: t.records

/-- A record lies at a place. -/
def Holds (s : Shelf) (place : Nat) (v : Value) : Prop :=
  s.records[place]? = some v

variable {s t u : Shelf} {v : Value} {place : Nat}

theorem Within.refl (s : Shelf) : s.Within s :=
  List.prefix_rfl

theorem Within.trans (h : s.Within t) (h' : t.Within u) : s.Within u :=
  List.IsPrefix.trans h h'

theorem within_add (s : Shelf) (v : Value) : s.Within (s.add v).1 :=
  List.prefix_append _ _

theorem holds_add (s : Shelf) (v : Value) : (s.add v).1.Holds (s.add v).2 v :=
  List.getElem?_concat_length

theorem Holds.within (h : s.Holds place v) (hw : s.Within t) : t.Holds place v := by
  obtain ⟨more, hmore⟩ := hw
  unfold Holds at h ⊢
  rw [← hmore, List.getElem?_append_left (List.getElem?_eq_some_iff.mp h).1, h]

theorem Holds.get (h : s.Holds place v) : s.get place = v := by
  rw [Shelf.get, h, Option.getD_some]

/-- A reply tells an answer of a store: the fault, or the place of the record, none for a null. -/
def Tells (s : Shelf) : Except StoreFault Value → Except StoreFault (Option Nat) → Prop
  | .error f, .error g => g = f
  | .ok v, .ok none => v.isNull = true
  | .ok v, .ok (some place) => v.isNull = false ∧ s.Holds place v
  | _, _ => False

/-- A reply reports a record by its place, and that there is none by no place or by a fault. -/
def Reports (s : Shelf) : Option Value → Except StoreFault (Option Nat) → Prop
  | some v, .ok (some place) => s.Holds place v
  | none, .ok none => True
  | none, .error _ => True
  | _, _ => False

theorem Reports.within {record : Option Value} {reply : Except StoreFault (Option Nat)}
    (h : s.Reports record reply) (hw : s.Within t) : t.Reports record reply := by
  rcases record with _ | v
  · rcases reply with f | _ | place
    · exact h
    · exact h
    · exact h.elim
  · rcases reply with f | _ | place
    · exact h.elim
    · exact h.elim
    · exact Holds.within h hw

end Shelf

/-- The record that an answer of a store gives; there is none when it is null, or a fault. -/
def recordOf : Except StoreFault Value → Option Value
  | .ok v => if v.isNull then none else some v
  | .error _ => none

theorem Shelf.Tells.reports {s : Shelf} {answer : Except StoreFault Value}
    {reply : Except StoreFault (Option Nat)} (h : s.Tells answer reply) :
    s.Reports (recordOf answer) reply := by
  rcases answer with f | v
  · rcases reply with g | place
    · exact trivial
    · exact h.elim
  · rcases reply with g | _ | place
    · exact h.elim
    · have hnull : v.isNull = true := h
      rw [recordOf, if_pos hnull]
      exact trivial
    · rw [recordOf, if_neg (by rw [h.1]; exact Bool.noConfusion)]
      exact h.2

/-- A session after another of the same store: what was handed out before is still there. -/
structure Follows (serves : Session → Prop) (s t : Session) : Prop where
  serves : serves t
  within : s.shelf.Within t.shelf

/-- A store with one answer for each entity and id. -/
structure FixedStore where
  read : String → String → Except StoreFault Value
  same_key : ∀ {e i e' i'}, Record.key e i = Record.key e' i' →
    recordOf (read e i) = recordOf (read e' i')
  supplier : Supplier Nat StoreFault Session
  /-- The answer to a request that was held back. -/
  reply : Request → Session → Session × Except StoreFault (Option Nat)
  /-- The sessions in which the store has these answers. -/
  Serves : Session → Prop
  serves_shelve : ∀ {s} v, Serves s → Serves (s.shelve v).1
  pause_follows : ∀ {s} n wait delay, Serves s →
    Follows Serves s (supplier.pause n wait delay s).1
  ask_follows : ∀ {s} n wait e i, Serves s →
    Follows Serves s (supplier.ask n wait (.record e i) s).1
  ask_tells : ∀ {s} n wait e i r, Serves s → (supplier.ask n wait (.record e i) s).2 = some r →
    (supplier.ask n wait (.record e i) s).1.shelf.Tells (read e i) r
  reply_follows : ∀ {s} e i, Serves s → Follows Serves s (reply (.record e i) s).1
  reply_tells : ∀ {s} e i, Serves s →
    (reply (.record e i) s).1.shelf.Tells (read e i) (reply (.record e i) s).2

/-- A record as the store itself has it. -/
def FixedStore.record? (store : FixedStore) (entity id : String) : Option Value :=
  recordOf (store.read entity id)

/-- An answer put on the shelf unless it is null, and where it lies. -/
def Session.hand (s : Session) : Except StoreFault Value → Session × Except StoreFault (Option Nat)
  | .error f => (s, .error f)
  | .ok v => if v.isNull then (s, .ok none) else ((s.shelve v).1, .ok (some (s.shelve v).2))

theorem Session.hand_tells (s : Session) (answer : Except StoreFault Value) :
    (s.hand answer).1.shelf.Tells answer (s.hand answer).2 := by
  rcases answer with f | v
  · exact rfl
  · cases hnull : v.isNull with
    | true =>
        simp only [hand, hnull, if_true]
        exact hnull
    | false =>
        simp only [hand, hnull]
        exact ⟨hnull, Shelf.holds_add s.shelf v⟩

theorem Session.hand_within (s : Session) (answer : Except StoreFault Value) :
    s.shelf.Within (s.hand answer).1.shelf := by
  rcases answer with f | v
  · exact .refl _
  · cases hnull : v.isNull with
    | true =>
        simp only [hand, hnull, if_true]
        exact .refl _
    | false =>
        simp only [hand, hnull]
        exact Shelf.within_add s.shelf v

theorem Session.hand_store (s : Session) (answer : Except StoreFault Value) :
    (s.hand answer).1.store = s.store := by
  rcases answer with f | v
  · rfl
  · cases hnull : v.isNull <;> simp only [hand, hnull] <;> rfl

/-- A session serves a request by handing out what its store answers. -/
theorem Session.serve_eq_hand (r : Request) (s : Session) :
    s.serve r = { s with store := (s.store.serve r).1 }.hand (s.store.answer r) := by
  unfold serve hand
  rcases h : s.store.answer r with f | v
  · simp only [Store.serve, h]
  · cases v <;> simp [Store.serve, h, Value.isNull]

theorem Session.serve_tells {store : Store} (r : Request) {s : Session}
    (h : s.store.answer = store.answer) :
    (s.serve r).1.shelf.Tells (store.answer r) (s.serve r).2 := by
  rw [serve_eq_hand, ← h]
  exact hand_tells _ _

/-- Any answers, with every pause and every request held back. -/
def FixedStore.patient (attempts : Nat) (read : String → String → Except StoreFault Value)
    (same_key : ∀ {e i e' i'}, Record.key e i = Record.key e' i' →
      recordOf (read e i) = recordOf (read e' i')) : FixedStore where
  read := read
  same_key := same_key
  supplier :=
    { attempts
      pause := fun _ _ _ s => (s, false)
      ask := fun _ _ _ s => (s, none) }
  reply := fun r s =>
    match r with
    | .record e i => s.hand (read e i)
    | .collection _ _ => (s, .ok none)
  Serves := fun _ => True
  serves_shelve := fun _ h => h
  pause_follows := fun _ _ _ h => ⟨h, .refl _⟩
  ask_follows := fun _ _ _ _ h => ⟨h, .refl _⟩
  ask_tells := fun _ _ _ _ _ _ h => nomatch h
  reply_follows := fun {s} e i h => ⟨h, s.hand_within (read e i)⟩
  reply_tells := fun {s} e i _ => s.hand_tells (read e i)

end Toolbar
