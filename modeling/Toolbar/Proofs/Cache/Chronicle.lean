/-
# `Toolbar.Proofs.Cache.Chronicle` — what can be seen of a run over one cache

Clients call the cache: they fetch a record, put one, invalidate keys, clear the cache or leave a
scope.  Each call has a number of its own.  Everybody who takes part writes down what happens to
him at the moment at which it happens: a client that its fetch begins and what it returns, and what
it puts or removes; the supplier each pause, and each call of the loader with its end.

    act        what happens next
    call       a client makes a call, which runs until it is done or has to wait
    wake       the wait of a fetch is over: its pause ends, or its load ends with a reply
    cancel     a fetch is given up in its wait

An order of acts is a schedule, and every schedule is allowed.  Which pauses and loads are over at
once, without a wait, is decided by the supplier `sup` and its own state, on which nothing is
assumed.  So a statement about `run sup oracle acts` for all three is about every interleaving.
-/
import Toolbar.Cache.Machine
import Toolbar.Store.Basic

namespace Toolbar

instance decidableEqExcept {ε α : Type} [DecidableEq ε] [DecidableEq α] : DecidableEq (Except ε α)
  | .ok a, .ok b => decidable_of_iff (a = b) ⟨congrArg _, Except.ok.inj⟩
  | .error e, .error f => decidable_of_iff (e = f) ⟨congrArg _, Except.error.inj⟩
  | .ok _, .error _ | .error _, .ok _ => .isFalse nofun

/-- What is seen of a run. -/
inductive Chronicle.Event (ρ φ : Type) where
  /-- A call begins to fetch the record of a key. -/
  | begun (call : Nat) (key : String)
  /-- A call pauses. -/
  | paused (call : Nat)
  /-- The loader is called for a call, with the record of a key. -/
  | asked (call : Nat) (key : String)
  /-- The load of a call ends. -/
  | loaded (call : Nat) (reply : Except φ (Option ρ))
  /-- A call is given up in its wait, and so is its load if that is what it waits for. -/
  | cancelled (call : Nat)
  /-- A call returns. -/
  | returned (call : Nat) (key : String) (reply : Except φ (Option ρ))
  /-- A record is put. -/
  | stored (key : String) (record : Option ρ)
  /-- Keys are invalidated, by themselves or with a scope. -/
  | dropped (keys : List String)
  | cleared
deriving DecidableEq

/-- The state of a supplier, and what was seen so far, the oldest first. -/
structure Chronicle (ρ φ σ : Type) where
  oracle : σ
  events : List (Chronicle.Event ρ φ) := []

namespace Chronicle

variable {ρ φ σ : Type}

def write (e : Event ρ φ) (o : Chronicle ρ φ σ) : Chronicle ρ φ σ :=
  { o with events := o.events ++ [e] }

/-- The supplier that does what `sup` does and writes it down. -/
def supplier (sup : Supplier ρ φ σ) : Supplier ρ φ (Chronicle ρ φ σ) where
  attempts := sup.attempts
  delay := sup.delay
  pause := fun call wait delay o =>
    let (oracle, isOver) := sup.pause call wait delay o.oracle
    (write (.paused call) { o with oracle }, isOver)
  ask := fun call wait request o =>
    let (oracle, reply) := sup.ask call wait request o.oracle
    let o := write (.asked call (Store.keyOf request)) { o with oracle }
    match reply with
    | some r => (write (.loaded call r) o, some r)
    | none => (o, none)

/-- The supplier under which every pause and every load is a wait. -/
def patient (attempts : Nat) : Supplier ρ φ Unit where
  attempts
  pause := fun _ _ _ o => (o, false)
  ask := fun _ _ _ o => (o, none)

/-- What a call asks of the cache. -/
inductive Call (ρ : Type) where
  | fetch (scope : Option Nat) (entity id : String)
  | move (m : Move ρ)

/-- What is written down of a move, given what each scope has touched. -/
def ofMove (scopes : Scopes) : Move ρ → Event ρ φ
  | .put key record => .stored key record
  | .invalidate keys => .dropped keys
  | .clear => .cleared
  | .leave scope => .dropped (scopes.keys scope)

/-- The end of a fetch. -/
def ending (call : Nat) (key : String) (reply : Except φ (Option ρ)) :
    Task ρ φ (Chronicle ρ φ σ) Unit :=
  .change (write (.returned call key reply)) (.done ())

/-- A call as a task. -/
def Call.task (call : Nat) : Call ρ → Task ρ φ (Chronicle ρ φ σ) Unit
  | .fetch scope entity id =>
      .change (write (.begun call (Record.key entity id)))
        (.fetch scope entity id (ending call (Record.key entity id)))
  | .move m => .look fun s =>
      .change (write (ofMove s.scopes m)) (.move m fun _ => .done ())

/-- What happens next. -/
inductive Act (ρ φ : Type) where
  | call (c : Call ρ)
  | wake (call : Nat) (reply : Except φ (Option ρ))
  | cancel (call : Nat)

/-- A machine whose tasks are calls. -/
abbrev Run (ρ φ σ : Type) := Machine ρ φ (Chronicle ρ φ σ) Unit

namespace Run

/-- What was seen of a run. -/
def events (m : Run ρ φ σ) : List (Event ρ φ) := m.shared.outer.events

/-- The cache of a run. -/
def cache (m : Run ρ φ σ) : Cache ρ := m.shared.cache

/-- A run at its beginning: an empty cache, and nobody waits. -/
def initial (oracle : σ) : Run ρ φ σ := { shared := { outer := { oracle } } }

/-- A run with one more event. -/
def write (e : Event ρ φ) (m : Run ρ φ σ) : Run ρ φ σ :=
  { m with shared := { m.shared with outer := Chronicle.write e m.shared.outer } }

/-- The run after an act; a call that it makes has the number `n`.  Who does not wait is neither
woken nor given up. -/
def step (sup : Supplier ρ φ σ) (n : Nat) (m : Run ρ φ σ) : Act ρ φ → Run ρ φ σ
  | .call c => (m.start (supplier sup) n (c.task n)).1
  | .wake call reply =>
      match m.parked.find? (·.task == call) with
      | none => m
      | some p =>
          (m.release (supplier sup) (fun _ o => (Chronicle.write (.loaded call reply) o, reply))
            p.wait).1
  | .cancel call =>
      match m.cancel call with
      | (m, true) => Run.write (.cancelled call) m
      | (m, false) => m

/-- The run after acts, of which the first has the number `n`. -/
def after (sup : Supplier ρ φ σ) (n : Nat) (m : Run ρ φ σ) : List (Act ρ φ) → Run ρ φ σ
  | [] => m
  | a :: as => after sup (n + 1) (m.step sup n a) as

end Run

/-- The run that a schedule makes from the beginning. -/
def run (sup : Supplier ρ φ σ) (oracle : σ) (acts : List (Act ρ φ)) : Run ρ φ σ :=
  Run.after sup 0 (Run.initial oracle) acts

end Chronicle

end Toolbar
