/-
# `Toolbar.Cache.Deferred` — a supplier that lets everybody wait

Every pause and every request waits until it is released, and is written down with its task and the
number of its wait.  A machine over this supplier takes every order in which tasks can overtake each
other.
-/
import Toolbar.Cache.Machine

namespace Toolbar

/-- A wait as it is written down. -/
inductive Deferral where
  | load (task wait : Nat) (request : Request)
  | pause (task wait : Nat) (delay : Number)
deriving DecidableEq, Repr

/-- The supplier that lets everybody wait and writes each wait down. -/
def Supplier.deferred (ρ φ : Type) (attempts : Nat) (delay : Number) :
    Supplier ρ φ (List Deferral) where
  attempts := attempts
  delay := delay
  pause := fun task wait delay notes => (notes ++ [.pause task wait delay], false)
  ask := fun task wait request notes => (notes ++ [.load task wait request], none)

end Toolbar
