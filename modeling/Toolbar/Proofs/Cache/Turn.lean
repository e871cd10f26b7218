/-
# `Toolbar.Proofs.Cache.Turn` — what a fetch can come to

A fetch that looks at the cache finds a record there, pauses, or loads the record under a mark of
its own; a pause and a load may be over at once.  `Comes` lists these turns with what each does to
the shared state, so that what every turn keeps is shown case by case.
-/
import Toolbar.Cache.Machine

namespace Toolbar

/-! ## The records of a cache -/

namespace Cache

variable {ρ : Type} {c : Cache ρ} {Q : String → Option ρ → Prop}

/-- All records of a cache, or that there are none, have a property. -/
def AllReady (Q : String → Option ρ → Prop) (c : Cache ρ) : Prop :=
  ∀ key record, c.get? key = some (.ready record) → Q key record

/-- Entries may be lost. -/
theorem AllReady.lose {c' : Cache ρ} (h : c.AllReady Q)
    (lost : ∀ key record, c'.get? key = some (.ready record) →
      c.get? key = some (.ready record)) : c'.AllReady Q :=
  fun key record hget => h key record (lost key record hget)

/-- A mark is no record. -/
theorem AllReady.claim (h : c.AllReady Q) (key : String) : (c.claim key).1.AllReady Q := by
  refine h.lose fun k record hget => ?_
  rw [get?_claim] at hget
  split at hget
  · cases hget
  · exact hget

theorem AllReady.abandon (h : c.AllReady Q) (key : String) (mark : Nat) :
    (c.abandon key mark).AllReady Q := by
  refine h.lose fun k record hget => ?_
  rw [get?_abandon] at hget
  split at hget
  · cases hget
  · exact hget

theorem AllReady.invalidate (h : c.AllReady Q) (keys : List String) :
    (c.invalidate keys).1.AllReady Q := by
  refine h.lose fun k record hget => ?_
  rw [get?_invalidate] at hget
  split at hget
  · cases hget
  · exact hget

theorem AllReady.settle (h : c.AllReady Q) {key : String} {record : Option ρ} (hQ : Q key record)
    (mark : Nat) : (c.settle key mark record).AllReady Q := by
  intro k record' hget
  rw [get?_settle] at hget
  split at hget
  next hkey =>
    cases hget
    rw [hkey.1]
    exact hQ
  next => exact h k record' hget

end Cache

/-! ## Turns -/

namespace Fetch

variable {ρ φ σ : Type}

/-- What a fetch can come to that looks at the cache and may still pause `left` times. -/
inductive Comes (sup : Supplier ρ φ σ) (f : Fetch) :
    Nat → Shared ρ σ → Shared ρ σ × Turn ρ φ → Prop
  | hit {left : Nat} {s : Shared ρ σ} {record : ρ} : s.cache.record? f.key = some record →
      Comes sup f left s (s, .answered (.ok (some record)))
  | passed {left wait : Nat} {delay : Number} {s : Shared ρ σ} {outer : σ}
      {r : Shared ρ σ × Turn ρ φ} : sup.pause f.task wait delay s.outer = (outer, true) →
      Comes sup f left { s with outer } r → Comes sup f (left + 1) s r
  | paused {left attempt wait : Nat} {delay : Number} {s : Shared ρ σ} {outer : σ} :
      sup.pause f.task wait delay s.outer = (outer, false) →
      Comes sup f (left + 1) s
        ({ s with outer, waits := s.waits + 1 }, .waiting (.pausing attempt left))
  | replied {left wait : Nat} {s : Shared ρ σ} {outer : σ} {reply : Except φ (Option ρ)} :
      sup.ask f.task wait f.request s.outer = (outer, some reply) →
      Comes sup f left s
        (f.finish s.cache.nextMark reply { s with cache := (s.cache.claim f.key).1, outer },
          .answered reply)
  | asked {left wait : Nat} {s : Shared ρ σ} {outer : σ} :
      sup.ask f.task wait f.request s.outer = (outer, none) →
      Comes sup f left s
        ({ s with cache := (s.cache.claim f.key).1, outer, waits := s.waits + 1 },
          .waiting (.loading s.cache.nextMark))

variable (sup : Supplier ρ φ σ) (f : Fetch)

theorem load_comes (left : Nat) (s : Shared ρ σ) : Comes sup f left s (f.load sup s) := by
  rcases hask : sup.ask f.task (s.waits + 1) f.request s.outer with ⟨outer, _ | reply⟩
  · simp only [load, hask]
    exact .asked hask
  · simp only [load, hask]
    exact .replied hask

theorem pauseOrLoad_comes : ∀ (left attempt : Nat) (s : Shared ρ σ),
    Comes sup f left s (f.pauseOrLoad sup attempt left s)
  | 0, _, s => load_comes sup f 0 s
  | left + 1, attempt, s => by
      unfold pauseOrLoad
      split
      next =>
        split
        next outer hpause => exact .passed hpause (pauseOrLoad_comes left (attempt + 1) _)
        next outer hpause => exact .paused hpause
      next => exact load_comes sup f (left + 1) s

theorem proceed_comes (attempt left : Nat) (s : Shared ρ σ) :
    Comes sup f left s (f.proceed sup attempt left s) := by
  unfold proceed
  split
  next record hrecord => exact .hit hrecord
  next => exact pauseOrLoad_comes sup f left attempt s

/-- How often a fetch that waits may still pause, this pause counted. -/
def Phase.pauses : Phase → Nat
  | .pausing _ left => left + 1
  | .loading _ => 0

theorem Comes.pauses_le {sup : Supplier ρ φ σ} {f : Fetch} {left : Nat} {s : Shared ρ σ}
    {r : Shared ρ σ × Turn ρ φ} (h : Comes sup f left s r) {phase : Phase}
    (hwait : r.2 = .waiting phase) : phase.pauses ≤ left := by
  induction h with
  | hit _ => cases hwait
  | passed _ _ ih => exact Nat.le_succ_of_le (ih hwait)
  | paused _ =>
      cases hwait
      exact Nat.le_refl _
  | replied _ => cases hwait
  | asked _ =>
      cases hwait
      exact Nat.zero_le _

end Fetch

end Toolbar
