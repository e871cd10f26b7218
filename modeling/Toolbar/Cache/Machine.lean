/-
# `Toolbar.Cache.Machine` — tasks that run side by side

A machine runs one task at a time, until it is done or has to wait; tasks that wait are parked.  A
parked task goes on when its wait is released, and only then, so the order in which waits are
released is the only thing that is left open.

    move       effect
    start      runs a new task
    release    runs a parked task with the answer to its wait
    cancel     gives a parked task up; the mark of its load is taken away
-/
import Toolbar.Cache.Fetch

namespace Toolbar

/-- What a parked task waits for, and how it goes on. -/
inductive Wait (ρ φ σ α : Type) where
  | fetching (f : Fetch) (phase : Fetch.Phase) (next : Except φ (Option ρ) → Task ρ φ σ α)
  | asking (request : Request) (next : Except φ (Option ρ) → Task ρ φ σ α)

/-- What a task has come to. -/
inductive Progress (ρ φ σ α : Type) where
  | finished (a : α)
  | parked (w : Wait ρ φ σ α)

/-- A parked task with its number and that of its wait. -/
structure Parked (ρ φ σ α : Type) where
  wait : Nat
  task : Nat
  what : Wait ρ φ σ α

/-- The shared state and the parked tasks. -/
structure Machine (ρ φ σ α : Type) where
  shared : Shared ρ σ
  parked : List (Parked ρ φ σ α) := []

variable {ρ φ σ α : Type}

/-- The scopes after a fetch for a scope has touched a key. -/
def Shared.touch (s : Shared ρ σ) (scope : Option Nat) (key : String) : Shared ρ σ :=
  match scope with
  | none => s
  | some n => { s with scopes := s.scopes.touch n key }

/-- Runs a task until it is done or has to wait. -/
def Task.run (sup : Supplier ρ φ σ) (number : Nat) :
    Task ρ φ σ α → Shared ρ σ → Shared ρ σ × Progress ρ φ σ α
  | .done a, s => (s, .finished a)
  | .look next, s => run sup number (next s) s
  | .change f next, s => run sup number next { s with outer := f s.outer }
  | .move m next, s => run sup number (next (m.apply s).2) (m.apply s).1
  | .fetch scope entity id next, s =>
      let f : Fetch := ⟨number, entity, id⟩
      match f.start sup (s.touch scope f.key) with
      | (s, .answered r) => run sup number (next r) s
      | (s, .waiting phase) => (s, .parked (.fetching f phase next))
  | .ask request next, s =>
      match sup.ask number (s.waits + 1) request s.outer with
      | (outer, some r) => run sup number (next r) { s with outer }
      | (outer, none) =>
          ({ s with outer, waits := s.waits + 1 }, .parked (.asking request next))

namespace Machine

/-- The machine after a task has run, and the task's result if it is done. -/
def record (m : Machine ρ φ σ α) (task : Nat) :
    Shared ρ σ × Progress ρ φ σ α → Machine ρ φ σ α × Option (Nat × α)
  | (shared, .finished a) => ({ m with shared }, some (task, a))
  | (shared, .parked w) => ({ shared, parked := m.parked ++ [⟨shared.waits, task, w⟩] }, none)

theorem record_shared (m : Machine ρ φ σ α) (task : Nat) (r : Shared ρ σ × Progress ρ φ σ α) :
    (m.record task r).1.shared = r.1 := by
  rcases r with ⟨s, a | w⟩ <;> rfl

/-- Who is parked then was parked before, or has come to a wait just now. -/
theorem mem_record {m : Machine ρ φ σ α} {task : Nat} {r : Shared ρ σ × Progress ρ φ σ α}
    {p : Parked ρ φ σ α} (h : p ∈ (m.record task r).1.parked) :
    p ∈ m.parked ∨ r.2 = .parked p.what ∧ p.wait = r.1.waits ∧ p.task = task := by
  rcases r with ⟨s, a | w⟩
  · exact .inl h
  · rcases List.mem_append.mp h with h | h
    · exact .inl h
    · rw [List.mem_singleton.mp h]
      exact .inr ⟨rfl, rfl, rfl⟩

/-- The machine after a new task has run. -/
def start (sup : Supplier ρ φ σ) (number : Nat) (t : Task ρ φ σ α) (m : Machine ρ φ σ α) :
    Machine ρ φ σ α × Option (Nat × α) :=
  m.record number (t.run sup number m.shared)

/-- Runs a parked task whose wait is over; `answer` is what the store says to a request. -/
def resume (sup : Supplier ρ φ σ) (answer : Request → σ → σ × Except φ (Option ρ))
    (p : Parked ρ φ σ α) (s : Shared ρ σ) : Shared ρ σ × Progress ρ φ σ α :=
  match p.what with
  | .asking request next =>
      let (outer, r) := answer request s.outer
      (next r).run sup p.task { s with outer }
  | .fetching f (.loading mark) next =>
      let (outer, r) := answer f.request s.outer
      (next r).run sup p.task (f.finish mark r { s with outer })
  | .fetching f (.pausing attempt left) next =>
      match f.proceed sup attempt left s with
      | (s, .answered r) => (next r).run sup p.task s
      | (s, .waiting phase) => (s, .parked (.fetching f phase next))

/-- The machine after a wait has been released; nothing happens when nobody waits under that
number. -/
def release (sup : Supplier ρ φ σ) (answer : Request → σ → σ × Except φ (Option ρ)) (wait : Nat)
    (m : Machine ρ φ σ α) : Machine ρ φ σ α × Option (Nat × α) :=
  match m.parked.find? (·.wait == wait) with
  | none => (m, none)
  | some p =>
      let rest := { m with parked := m.parked.filter (·.wait != wait) }
      rest.record p.task (resume sup answer p m.shared)

/-- The shared state after a parked task has been given up. -/
def giveUp (p : Parked ρ φ σ α) (s : Shared ρ σ) : Shared ρ σ :=
  match p.what with
  | .asking _ _ => s
  | .fetching f phase _ => f.giveUp phase s

/-- The machine after a task has been given up, and whether it was parked. -/
def cancel (task : Nat) (m : Machine ρ φ σ α) : Machine ρ φ σ α × Bool :=
  match m.parked.find? (·.task == task) with
  | none => (m, false)
  | some p => (⟨giveUp p m.shared, m.parked.filter (·.task != task)⟩, true)

end Machine

end Toolbar
