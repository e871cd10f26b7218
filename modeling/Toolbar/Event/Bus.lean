/-
# `Toolbar.Event.Bus` — who listens to which event

A bus keeps, for each name of an event, its listeners in the order in which they subscribed.  A
listener may subscribe several times and is then called as often; unsubscribing takes away its
earliest subscription.
-/
import Toolbar.Keyed

namespace Toolbar

/-- The listeners of each event, by name, in the order in which they subscribed. -/
structure Bus (κ : Type) where
  entries : List (String × List κ) := []

namespace Bus

variable {κ : Type}

/-- The listeners of an event. -/
def listeners (b : Bus κ) (name : String) : List κ :=
  (b.entries.lookup name).getD []

/-- How many listeners an event has, repeated ones counted as often. -/
def count (b : Bus κ) (name : String) : Nat :=
  (b.listeners name).length

/-- The bus with the listeners of an event replaced. -/
def set (b : Bus κ) (name : String) (listeners : List κ) : Bus κ :=
  ⟨(name, listeners) :: b.entries.filter fun e => e.1 != name⟩

/-- The bus with one more listener of an event, the last. -/
def subscribe (b : Bus κ) (name : String) (listener : κ) : Bus κ :=
  b.set name (b.listeners name ++ [listener])

/-- The bus without the earliest subscription of a listener, and whether there was one. -/
def unsubscribe [DecidableEq κ] (b : Bus κ) (name : String) (listener : κ) : Bus κ × Bool :=
  if (b.listeners name).contains listener then
    (b.set name ((b.listeners name).erase listener), true)
  else (b, false)

/-! ## The listeners of an event after each operation -/

theorem listeners_set (b : Bus κ) (name other : String) (listeners : List κ) :
    (b.set name listeners).listeners other =
      if other = name then listeners else b.listeners other := by
  by_cases h : other = name
  · simp [Bus.listeners, set, h]
  · have hne : (other == name) = false := beq_eq_false_iff_ne.mpr h
    simp only [Bus.listeners, set, List.lookup_cons, hne, Keyed.lookup_others_of_ne h, if_neg h]

theorem listeners_subscribe (b : Bus κ) (name other : String) (listener : κ) :
    (b.subscribe name listener).listeners other =
      if other = name then b.listeners name ++ [listener] else b.listeners other :=
  listeners_set b name other _

theorem listeners_unsubscribe [DecidableEq κ] (b : Bus κ) (name other : String) (listener : κ) :
    (b.unsubscribe name listener).1.listeners other =
      if other = name then (b.listeners name).erase listener else b.listeners other := by
  unfold unsubscribe
  split
  next => exact listeners_set b name other _
  next absent =>
    have hmem : listener ∉ b.listeners name := by simpa using absent
    split
    next h => rw [h, List.erase_of_not_mem hmem]
    next => rfl

end Bus

end Toolbar
