/-
# `Toolbar.Proofs.Cache.Moment` — a run over one cache, one moment at a time

A schedule lets a call run from one wait to the next, and much can happen on the way: a fetch begins,
pauses, is over its pause at once, calls the loader, and has its answer at once too.  Here the same
run is taken apart into moments, at each of which one thing happens.

    moment       gate                                             what it does
    begun        the number is new                                the call looks, all pauses left
    hit          the key has a record                             the call returns it
    paused       the key is loading, a pause is left              one pause fewer is left
    asked        no record; loading only if no pause is left      a new mark, the loader is called
    loaded       the call waits for its load                      stores or takes its mark away, returns
    cancelled    the call waits                                   takes its mark away
    stored, dropped, cleared                                      the cache changes

`run_moments` says that every run is a run of moments.  What moments keep, all runs keep, so
statements about runs are proved by one case for each row of the table.
-/
import Mathlib.Data.List.Nodup
import Mathlib.Logic.Function.Basic
import Mathlib.Logic.Relation
import Toolbar.Proofs.Cache.Chronicle

namespace Toolbar

/-- The cache after the load under a mark has ended. -/
def Cache.conclude {ρ φ : Type} (c : Cache ρ) (key : String) (mark : Nat) :
    Except φ (Option ρ) → Cache ρ
  | .ok record => c.settle key mark record
  | .error _ => c.abandon key mark

/-- A load that has lost its mark changes nothing when it ends. -/
theorem Cache.conclude_of_not_holds {ρ φ : Type} {c : Cache ρ} {key : String} {mark : Nat}
    (h : c.get? key ≠ some (.loading mark)) :
    ∀ reply : Except φ (Option ρ), c.conclude key mark reply = c
  | .ok record => settle_of_not_holds h record
  | .error _ => abandon_of_not_holds h

theorem Cache.get?_conclude {ρ φ : Type} (c : Cache ρ) (key k : String) (mark : Nat)
    (reply : Except φ (Option ρ)) :
    (c.conclude key mark reply).get? k =
      if k = key ∧ c.holds key mark = true then reply.toOption.map .ready else c.get? k := by
  cases reply with
  | ok record => exact get?_settle c key k mark record
  | error e => exact get?_abandon c key k mark

@[simp] theorem Cache.nextMark_conclude {ρ φ : Type} (c : Cache ρ) (key : String) (mark : Nat) :
    ∀ reply : Except φ (Option ρ), (c.conclude key mark reply).nextMark = c.nextMark
  | .ok record => nextMark_settle c key mark record
  | .error _ => nextMark_abandon c key mark

namespace Chronicle

open Function (update)

variable {ρ φ σ : Type}

/-! ## Views and moments -/

/-- Where a call stands that has begun and not ended. -/
inductive Standing where
  /-- It looks, or is in a pause before it looks again, with so many pauses behind and left. -/
  | looking (key : String) (attempt left : Nat)
  /-- It waits for its load. -/
  | loading (key : String) (mark : Nat)
deriving DecidableEq, Repr

namespace Standing

/-- Where a fetch of a key stands that has to wait. -/
def ofPhase (key : String) : Fetch.Phase → Standing
  | .pausing attempt left => looking key attempt left
  | .loading mark => loading key mark

/-- The cache after a call has been given up where it stands. -/
def giveUp (c : Cache ρ) : Standing → Cache ρ
  | looking _ _ _ => c
  | loading key mark => c.abandon key mark

end Standing

/-- What matters of a run at a moment: the cache, what was seen, where each call stands, and the
number of the next call. -/
structure View (ρ φ : Type) where
  cache : Cache ρ := {}
  events : List (Event ρ φ) := []
  standing : Nat → Option Standing := fun _ => none
  next : Nat := 0

/-- What can happen at a moment, where a fetch may pause `attempts` times. -/
inductive Moment (attempts : Nat) : View ρ φ → View ρ φ → Prop
  | begun (v : View ρ φ) (key : String) :
      Moment attempts v
        { v with
          events := v.events ++ [.begun v.next key]
          standing := update v.standing v.next (some (.looking key 0 attempts))
          next := v.next + 1 }
  | hit {v : View ρ φ} {n : Nat} {key : String} {attempt left : Nat} {record : ρ}
      (stands : v.standing n = some (.looking key attempt left))
      (is_ready : v.cache.record? key = some record) :
      Moment attempts v
        { v with
          events := v.events ++ [.returned n key (.ok (some record))]
          standing := update v.standing n none }
  | paused {v : View ρ φ} {n : Nat} {key : String} {attempt left : Nat}
      (stands : v.standing n = some (.looking key attempt (left + 1)))
      (is_loading : v.cache.isLoading key = true) :
      Moment attempts v
        { v with
          events := v.events ++ [.paused n]
          standing := update v.standing n (some (.looking key (attempt + 1) left)) }
  | asked {v : View ρ φ} {n : Nat} {key : String} {attempt left : Nat}
      (stands : v.standing n = some (.looking key attempt left))
      (not_ready : v.cache.record? key = none)
      (exhausted : v.cache.isLoading key = true → left = 0) :
      Moment attempts v
        { v with
          cache := (v.cache.claim key).1
          events := v.events ++ [.asked n key]
          standing := update v.standing n (some (.loading key v.cache.nextMark)) }
  | loaded {v : View ρ φ} {n : Nat} {key : String} {mark : Nat}
      (stands : v.standing n = some (.loading key mark)) (reply : Except φ (Option ρ)) :
      Moment attempts v
        { v with
          cache := v.cache.conclude key mark reply
          events := v.events ++ [.loaded n reply, .returned n key reply]
          standing := update v.standing n none }
  | cancelled {v : View ρ φ} {n : Nat} {st : Standing} (stands : v.standing n = some st) :
      Moment attempts v
        { v with
          cache := st.giveUp v.cache
          events := v.events ++ [.cancelled n]
          standing := update v.standing n none }
  | stored (v : View ρ φ) (key : String) (record : Option ρ) :
      Moment attempts v
        { v with cache := v.cache.put key record, events := v.events ++ [.stored key record] }
  | dropped (v : View ρ φ) (keys : List String) :
      Moment attempts v
        { v with cache := (v.cache.invalidate keys).1, events := v.events ++ [.dropped keys] }
  | cleared (v : View ρ φ) :
      Moment attempts v { v with cache := v.cache.clear, events := v.events ++ [.cleared] }
  /-- An act that begins no fetch uses up a number too. -/
  | numbered (v : View ρ φ) : Moment attempts v { v with next := v.next + 1 }

/-- Any number of moments. -/
abbrev Moments (attempts : Nat) : View ρ φ → View ρ φ → Prop :=
  Relation.ReflTransGen (Moment attempts)

/-! ## What a moment can do to an entry, to a call and to what was seen -/

section Inversion

variable {attempts : Nat} {v v' : View ρ φ}

/-- A mark that a key has was there before, or a call has just asked for a load under it. -/
theorem Moment.loading_entry (step : Moment attempts v v') {key : String} {mark : Nat}
    (h : v'.cache.get? key = some (.loading mark)) :
    v.cache.get? key = some (.loading mark) ∨
      ∃ n, mark = v.cache.nextMark ∧ v'.standing n = some (.loading key mark) ∧
        v'.events = v.events ++ [.asked n key] ∧ v'.cache.nextMark = v.cache.nextMark + 1 := by
  cases step with
  | begun | hit | paused | numbered => exact .inl h
  | @asked n k =>
      rw [Cache.get?_claim] at h
      split at h
      next hk =>
        cases h
        exact .inr ⟨n, rfl, by rw [hk]; exact Function.update_self .., by rw [hk], rfl⟩
      next => exact .inl h
  | @loaded n k m stands reply =>
      rw [Cache.get?_conclude] at h
      split at h
      · cases reply <;> cases h
      · exact .inl h
  | @cancelled n st stands =>
      cases st with
      | looking => exact .inl h
      | loading k m =>
          rw [Standing.giveUp, Cache.get?_abandon] at h
          split at h
          · cases h
          · exact .inl h
  | stored k record =>
      rw [Cache.get?_put] at h
      split at h
      · cases h
      · exact .inl h
  | dropped keys =>
      rw [Cache.get?_invalidate] at h
      split at h
      · cases h
      · exact .inl h
  | cleared => cases h

/-- A record that a key has was there before, was just put, or comes from a load that has just
ended under the key's mark. -/
theorem Moment.ready_entry (step : Moment attempts v v') {key : String} {record : Option ρ}
    (h : v'.cache.get? key = some (.ready record)) :
    v.cache.get? key = some (.ready record) ∨
      v'.events = v.events ++ [.stored key record] ∨
      ∃ n mark, v.standing n = some (.loading key mark) ∧
        v.cache.get? key = some (.loading mark) ∧
        v'.events = v.events ++ [.loaded n (.ok record), .returned n key (.ok record)] := by
  cases step with
  | begun | hit | paused | numbered => exact .inl h
  | asked =>
      rw [Cache.get?_claim] at h
      split at h
      · cases h
      · exact .inl h
  | @loaded n k m stands reply =>
      rw [Cache.get?_conclude] at h
      split at h
      next hk =>
        obtain ⟨rfl, hm⟩ := hk
        cases reply with
        | ok r =>
            cases h
            exact .inr (.inr ⟨n, m, stands, Cache.holds_iff.mp hm, rfl⟩)
        | error e => cases h
      next => exact .inl h
  | @cancelled n st stands =>
      cases st with
      | looking => exact .inl h
      | loading k m =>
          rw [Standing.giveUp, Cache.get?_abandon] at h
          split at h
          · cases h
          · exact .inl h
  | stored k r =>
      rw [Cache.get?_put] at h
      split at h
      next hk =>
        cases h
        exact .inr (.inl (by rw [hk]))
      next => exact .inl h
  | dropped keys =>
      rw [Cache.get?_invalidate] at h
      split at h
      · cases h
      · exact .inl h
  | cleared => cases h

theorem update_eq_some {f : Nat → Option Standing} {n k : Nat} {x : Option Standing}
    {st : Standing} :
    update f n x k = some st ↔ (k = n ∧ x = some st) ∨ (k ≠ n ∧ f k = some st) := by
  by_cases h : k = n
  · subst h
    simp
  · simp [h]

/-- A call that waits for its load did so before, or has just asked for it under a new mark. -/
theorem Moment.loading_call (step : Moment attempts v v') {n : Nat} {key : String} {mark : Nat}
    (h : v'.standing n = some (.loading key mark)) :
    v.standing n = some (.loading key mark) ∨
      (∃ attempt left, v.standing n = some (.looking key attempt left)) ∧
        mark = v.cache.nextMark ∧ v'.cache.nextMark = v.cache.nextMark + 1 ∧
        v'.events = v.events ++ [.asked n key] ∧ v'.cache.get? key = some (.loading mark) := by
  cases step with
  | begun | hit | paused | loaded | cancelled =>
      rcases update_eq_some.mp h with ⟨-, h⟩ | ⟨-, h⟩
      · cases h
      · exact .inl h
  | asked stands =>
      rcases update_eq_some.mp h with ⟨hn, h⟩ | ⟨-, h⟩
      · cases h
        refine .inr ⟨⟨_, _, hn ▸ stands⟩, rfl, rfl, by rw [hn], ?_⟩
        rw [Cache.get?_claim, if_pos rfl]
      · exact .inl h
  | stored | dropped | cleared | numbered => exact .inl h

/-- What was seen stays seen. -/
theorem Moment.events_append (step : Moment attempts v v') :
    ∃ new, v'.events = v.events ++ new := by
  cases step with
  | begun | hit | paused | asked | loaded | cancelled | stored | dropped | cleared =>
      exact ⟨_, rfl⟩
  | numbered => exact ⟨[], (List.append_nil _).symm⟩

theorem Moment.nextMark_le (step : Moment attempts v v') :
    v.cache.nextMark ≤ v'.cache.nextMark := by
  cases step with
  | begun | hit | paused | cleared | numbered => exact Nat.le_refl _
  | @asked n key =>
      show v.cache.nextMark ≤ (v.cache.claim key).1.nextMark
      rw [Cache.nextMark_claim]
      exact Nat.le_succ _
  | stored key record => exact Nat.le_of_eq (Cache.nextMark_put v.cache key record).symm
  | loaded => exact Nat.le_of_eq (Cache.nextMark_conclude ..).symm
  | @cancelled n st =>
      cases st with
      | looking => exact Nat.le_refl _
      | loading key mark => exact Nat.le_of_eq (Cache.nextMark_abandon ..).symm
  | dropped keys => exact Nat.le_of_eq (Cache.nextMark_invalidate keys v.cache).symm

end Inversion

/-! ## A fetch is a run of moments -/

/-- The view after a fetch has come to a turn; one that has its answer returns it. -/
def afterTurn (f : Fetch) (standing : Nat → Option Standing) (next : Nat) :
    Shared ρ (Chronicle ρ φ σ) × Fetch.Turn ρ φ → View ρ φ
  | (s, .answered r) =>
      ⟨s.cache, s.outer.events ++ [.returned f.task f.key r], update standing f.task none, next⟩
  | (s, .waiting phase) =>
      ⟨s.cache, s.outer.events, update standing f.task (some (.ofPhase f.key phase)), next⟩

/-- Where the fetch stood before its turn does not matter. -/
theorem afterTurn_update (f : Fetch) (standing : Nat → Option Standing) (st : Option Standing)
    (next : Nat) (t : Shared ρ (Chronicle ρ φ σ) × Fetch.Turn ρ φ) :
    afterTurn f (update standing f.task st) next t = afterTurn f standing next t := by
  obtain ⟨s, r | phase⟩ := t <;> simp [afterTurn, Function.update_idem]

section Fetching

variable (sup : Supplier ρ φ σ) (f : Fetch) {standing : Nat → Option Standing} {next : Nat}

@[simp] theorem keyOf_request : Store.keyOf f.request = f.key := rfl

@[simp] theorem events_write (e : Event ρ φ) (o : Chronicle ρ φ σ) :
    (write e o).events = o.events ++ [e] := rfl

variable {sup} in
theorem supplier_pause {call wait : Nat} {delay : Number} {o : Chronicle ρ φ σ} {oracle : σ}
    {isOver : Bool} (h : sup.pause call wait delay o.oracle = (oracle, isOver)) :
    (supplier sup).pause call wait delay o = (write (.paused call) { o with oracle }, isOver) := by
  simp only [supplier, h]

variable {sup} in
theorem supplier_ask {call wait : Nat} {request : Request} {o : Chronicle ρ φ σ} {oracle : σ}
    {reply : Option (Except φ (Option ρ))}
    (h : sup.ask call wait request o.oracle = (oracle, reply)) :
    (supplier sup).ask call wait request o =
      (match reply with
        | some r =>
            write (.loaded call r) (write (.asked call (Store.keyOf request)) { o with oracle })
        | none => write (.asked call (Store.keyOf request)) { o with oracle }, reply) := by
  cases reply <;> simp only [supplier, h]

theorem finish_cache (mark : Nat) (r : Except φ (Option ρ)) (s : Shared ρ (Chronicle ρ φ σ)) :
    (f.finish mark r s).cache = s.cache.conclude f.key mark r := by
  cases r <;> rfl

@[simp] theorem finish_outer (mark : Nat) (r : Except φ (Option ρ))
    (s : Shared ρ (Chronicle ρ φ σ)) : (f.finish mark r s).outer = s.outer := rfl

/-- A load is asked for, and ends at once if the supplier has its reply at once. -/
theorem load_moments (s : Shared ρ (Chronicle ρ φ σ)) {attempt left : Nat}
    (stands : standing f.task = some (.looking f.key attempt left))
    (not_ready : s.cache.record? f.key = none)
    (exhausted : s.cache.isLoading f.key = true → left = 0) :
    Moments sup.attempts ⟨s.cache, s.outer.events, standing, next⟩
      (afterTurn f standing next (f.load (supplier sup) s)) := by
  have asked : Moment sup.attempts ⟨s.cache, s.outer.events, standing, next⟩ _ :=
    .asked stands not_ready exhausted
  rcases h : sup.ask f.task (s.waits + 1) f.request s.outer.oracle with ⟨oracle, _ | r⟩
  · simp only [Fetch.load, Cache.claim_mark, supplier_ask h]
    exact .single asked
  · simp only [Fetch.load, Cache.claim_mark, supplier_ask h, afterTurn, finish_cache]
    refine .tail (.single asked) ?_
    have loaded : Moment sup.attempts
        ⟨(s.cache.claim f.key).1, s.outer.events ++ [.asked f.task f.key],
          update standing f.task (some (.loading f.key s.cache.nextMark)), next⟩ _ :=
      .loaded (Function.update_self ..) r
    simpa [Function.update_idem] using loaded

/-- A fetch that finds no record pauses while the key is loading and pauses are left. -/
theorem pauseOrLoad_moments :
    ∀ (left attempt : Nat) (s : Shared ρ (Chronicle ρ φ σ)) (standing : Nat → Option Standing),
      standing f.task = some (.looking f.key attempt left) →
      s.cache.record? f.key = none →
      Moments sup.attempts ⟨s.cache, s.outer.events, standing, next⟩
        (afterTurn f standing next (f.pauseOrLoad (supplier sup) attempt left s))
  | 0, attempt, s, standing, stands, not_ready =>
      load_moments sup f s stands not_ready fun _ => rfl
  | left + 1, attempt, s, standing, stands, not_ready => by
      unfold Fetch.pauseOrLoad
      split
      next is_loading =>
        have paused : Moment sup.attempts ⟨s.cache, s.outer.events, standing, next⟩ _ :=
          .paused stands is_loading
        rcases h : sup.pause f.task (s.waits + 1) (sup.delay.scale (attempt + 1)) s.outer.oracle
          with ⟨oracle, _ | _⟩
        · rw [show (supplier sup).delay = sup.delay from rfl, supplier_pause h]
          exact .single paused
        · rw [show (supplier sup).delay = sup.delay from rfl, supplier_pause h]
          refine .head paused ?_
          have ih := pauseOrLoad_moments left (attempt + 1)
            { s with outer := write (.paused f.task) { s.outer with oracle } }
            (update standing f.task (some (.looking f.key (attempt + 1) left)))
            (by simp) not_ready
          rwa [afterTurn_update] at ih
      next not_loading =>
        exact load_moments sup f s stands not_ready fun h => absurd h not_loading

/-- A fetch that looks at the cache. -/
theorem proceed_moments (s : Shared ρ (Chronicle ρ φ σ)) {attempt left : Nat}
    (stands : standing f.task = some (.looking f.key attempt left)) :
    Moments sup.attempts ⟨s.cache, s.outer.events, standing, next⟩
      (afterTurn f standing next (f.proceed (supplier sup) attempt left s)) := by
  unfold Fetch.proceed
  split
  next record h => exact .single (.hit stands h)
  next h => exact pauseOrLoad_moments sup f left attempt s standing stands h

/-- A fetch that begins, with its key touched in a scope. -/
theorem start_moments (s : Shared ρ (Chronicle ρ φ σ)) (scope : Option Nat)
    (stands : standing f.task = some (.looking f.key 0 sup.attempts)) :
    Moments sup.attempts ⟨s.cache, s.outer.events, standing, next⟩
      (afterTurn f standing next (f.start (supplier sup) (s.touch scope f.key))) := by
  cases scope with
  | none => exact proceed_moments sup f s stands
  | some n => exact proceed_moments sup f (s.touch (some n) f.key) stands

end Fetching

/-! ## Where the parked calls stand -/

/-- Where a parked call stands. -/
def ofParked (p : Parked ρ φ (Chronicle ρ φ σ) Unit) : Option Standing :=
  match p.what with
  | .fetching f phase _ => some (.ofPhase f.key phase)
  | .asking _ _ => none

/-- Where each call stands, given those that are parked. -/
def standingOf (ps : List (Parked ρ φ (Chronicle ρ φ σ) Unit)) (n : Nat) : Option Standing :=
  (ps.find? (·.task == n)).bind ofParked

theorem standingOf_append {ps : List (Parked ρ φ (Chronicle ρ φ σ) Unit)}
    {p : Parked ρ φ (Chronicle ρ φ σ) Unit} (h : ∀ q ∈ ps, q.task ≠ p.task) :
    standingOf (ps ++ [p]) = update (standingOf ps) p.task (ofParked p) := by
  funext n
  simp only [standingOf, List.find?_append]
  by_cases hn : n = p.task
  · subst hn
    have hnone : ps.find? (·.task == p.task) = none :=
      List.find?_eq_none.mpr fun q hq => by simpa using h q hq
    simp [hnone]
  · have hne : (p.task == n) = false := beq_eq_false_iff_ne.mpr fun h => hn h.symm
    rw [Function.update_of_ne hn, standingOf]
    simp [hne]

theorem standingOf_filter (ps : List (Parked ρ φ (Chronicle ρ φ σ) Unit)) (t : Nat) :
    standingOf (ps.filter (·.task != t)) = update (standingOf ps) t none := by
  funext n
  simp only [standingOf, List.find?_filter, Bool.decide_and, Bool.decide_eq_true]
  by_cases hn : n = t
  · subst hn
    have hnone : ps.find? (fun q => q.task != n && q.task == n) = none :=
      List.find?_eq_none.mpr fun q _ => by simp
    rw [hnone, Function.update_self]
    rfl
  · have hsame : (fun q : Parked ρ φ (Chronicle ρ φ σ) Unit => q.task != t && q.task == n)
        = (·.task == n) := by
      funext q
      by_cases hq : q.task = n
      · subst hq
        simp [hn]
      · simp [hq]
    rw [hsame, Function.update_of_ne hn, standingOf]

theorem update_standingOf {ps : List (Parked ρ φ (Chronicle ρ φ σ) Unit)} {t : Nat}
    (h : ∀ q ∈ ps, q.task ≠ t) : update (standingOf ps) t none = standingOf ps := by
  have hnone : ps.find? (·.task == t) = none :=
    List.find?_eq_none.mpr fun q hq => by simpa using h q hq
  have hst : standingOf ps t = none := by rw [standingOf, hnone]; rfl
  rw [← hst, Function.update_eq_self]

/-- What a run shows at a moment at which the next call has the number `n`. -/
def Run.view (n : Nat) (m : Run ρ φ σ) : View ρ φ :=
  ⟨m.cache, m.events, standingOf m.parked, n⟩

/-! ## A run is a run of moments -/

/-- How many new waits a turn makes. -/
def waitsOf : Fetch.Turn ρ φ → Nat
  | .answered _ => 0
  | .waiting _ => 1

theorem load_waits {τ : Type} (sup : Supplier ρ φ τ) (f : Fetch) (s : Shared ρ τ) :
    (f.load sup s).1.waits = s.waits + waitsOf (f.load sup s).2 := by
  simp only [Fetch.load]
  split <;> rfl

theorem pauseOrLoad_waits {τ : Type} (sup : Supplier ρ φ τ) (f : Fetch) :
    ∀ (left attempt : Nat) (s : Shared ρ τ),
      (f.pauseOrLoad sup attempt left s).1.waits
        = s.waits + waitsOf (f.pauseOrLoad sup attempt left s).2
  | 0, _, s => load_waits sup f s
  | left + 1, attempt, s => by
      unfold Fetch.pauseOrLoad
      split
      · split
        next outer h => exact pauseOrLoad_waits sup f left (attempt + 1) { s with outer }
        next => rfl
      · exact load_waits sup f s

theorem proceed_waits {τ : Type} (sup : Supplier ρ φ τ) (f : Fetch) (attempt left : Nat)
    (s : Shared ρ τ) :
    (f.proceed sup attempt left s).1.waits
      = s.waits + waitsOf (f.proceed sup attempt left s).2 := by
  unfold Fetch.proceed
  split
  · rfl
  · exact pauseOrLoad_waits sup f left attempt s

/-- What holds of a run between two acts: all who wait are fetches, with numbers and waits of their
own. -/
structure Run.Formed (n : Nat) (m : Run ρ φ σ) : Prop where
  fetching : ∀ p ∈ m.parked, ∃ f phase,
    p.what = .fetching f phase (ending f.task f.key) ∧ f.task = p.task
  task_lt : ∀ p ∈ m.parked, p.task < n
  task_nodup : (m.parked.map (·.task)).Nodup
  wait_le : ∀ p ∈ m.parked, p.wait ≤ m.shared.waits
  wait_nodup : (m.parked.map (·.wait)).Nodup

/-- The run after a fetch of it has come to a turn. -/
def Run.turned (m : Run ρ φ σ) (f : Fetch) :
    Shared ρ (Chronicle ρ φ σ) × Fetch.Turn ρ φ → Run ρ φ σ
  | (s, .answered r) =>
      { m with shared := { s with outer := Chronicle.write (.returned f.task f.key r) s.outer } }
  | (s, .waiting phase) =>
      ⟨s, m.parked ++ [⟨s.waits, f.task, .fetching f phase (ending f.task f.key)⟩]⟩

namespace Run

theorem Formed.initial (oracle : σ) : Formed 0 (Run.initial oracle : Run ρ φ σ) := by
  constructor <;> simp [Run.initial]

variable {n k : Nat} {m : Run ρ φ σ} {f : Fetch}
  {t : Shared ρ (Chronicle ρ φ σ) × Fetch.Turn ρ φ}

theorem view_turned (others : ∀ q ∈ m.parked, q.task ≠ f.task) :
    view n (turned m f t) = afterTurn f (standingOf m.parked) n t := by
  obtain ⟨s, r | phase⟩ := t
  · simp only [afterTurn, update_standingOf others]
    rfl
  · simp only [view, turned, afterTurn]
    rw [standingOf_append others]
    rfl

theorem Formed.turned (h : Formed n m) (others : ∀ q ∈ m.parked, q.task ≠ f.task)
    (task_lt : f.task < n) (waits : t.1.waits = m.shared.waits + waitsOf t.2) :
    Formed n (turned m f t) := by
  obtain ⟨s, r | phase⟩ := t
  · have hs : s.waits = m.shared.waits := waits
    exact ⟨h.fetching, h.task_lt, h.task_nodup, fun p hp => hs ▸ h.wait_le p hp, h.wait_nodup⟩
  · have hs : s.waits = m.shared.waits + 1 := waits
    refine ⟨fun p hp => ?_, fun p hp => ?_, ?_, fun p hp => ?_, ?_⟩
    · rcases List.mem_append.mp hp with hp | hp
      · exact h.fetching p hp
      · rw [List.mem_singleton.mp hp]
        exact ⟨f, phase, rfl, rfl⟩
    · rcases List.mem_append.mp hp with hp | hp
      · exact h.task_lt p hp
      · rw [List.mem_singleton.mp hp]
        exact task_lt
    · simp only [Run.turned, List.map_append, List.map_cons, List.map_nil]
      refine List.nodup_append.mpr ⟨h.task_nodup, List.nodup_singleton _, ?_⟩
      intro a ha b hb
      obtain ⟨q, hq, rfl⟩ := List.mem_map.mp ha
      rw [List.mem_singleton.mp hb]
      exact others q hq
    · rcases List.mem_append.mp hp with hp | hp
      · have hle := h.wait_le p hp
        show p.wait ≤ s.waits
        omega
      · rw [List.mem_singleton.mp hp]
        exact Nat.le_refl _
    · simp only [Run.turned, List.map_append, List.map_cons, List.map_nil]
      refine List.nodup_append.mpr ⟨h.wait_nodup, List.nodup_singleton _, ?_⟩
      intro a ha b hb
      obtain ⟨q, hq, rfl⟩ := List.mem_map.mp ha
      rw [List.mem_singleton.mp hb]
      have hle := h.wait_le q hq
      omega

/-- A run without one of those who wait. -/
def without (m : Run ρ φ σ) (t : Nat) : Run ρ φ σ :=
  { m with parked := m.parked.filter (·.task != t) }

theorem Formed.without (h : Formed n m) (t : Nat) : Formed n (without m t) := by
  have hsub : (m.parked.filter (·.task != t)).Sublist m.parked := List.filter_sublist
  exact ⟨fun p hp => h.fetching p (hsub.subset hp), fun p hp => h.task_lt p (hsub.subset hp),
    h.task_nodup.sublist (hsub.map _), fun p hp => h.wait_le p (hsub.subset hp),
    h.wait_nodup.sublist (hsub.map _)⟩

theorem without_others (m : Run ρ φ σ) (t : Nat) :
    ∀ q ∈ (without m t).parked, q.task ≠ t := by
  intro q hq
  simpa using (List.mem_filter.mp hq).2

/-- A wait and a number name the same one of those who wait. -/
theorem Formed.filter_wait (h : Formed n m) {p : Parked ρ φ (Chronicle ρ φ σ) Unit}
    (hp : p ∈ m.parked) :
    m.parked.filter (·.wait != p.wait) = m.parked.filter (·.task != p.task) := by
  refine List.filter_congr fun q hq => ?_
  by_cases hqp : q = p
  · rw [hqp, bne_self_eq_false, bne_self_eq_false]
  · have hw : q.wait ≠ p.wait := fun e => hqp (List.inj_on_of_nodup_map h.wait_nodup hq hp e)
    have ht : q.task ≠ p.task := fun e => hqp (List.inj_on_of_nodup_map h.task_nodup hq hp e)
    rw [bne_iff_ne.mpr hw, bne_iff_ne.mpr ht]

theorem Formed.find?_wait (h : Formed n m) {p : Parked ρ φ (Chronicle ρ φ σ) Unit}
    (hp : p ∈ m.parked) : m.parked.find? (·.wait == p.wait) = some p :=
  Keyed.find?_of_nodup h.wait_nodup hp

theorem Formed.succ (h : Formed n m) : Formed (n + 1) m :=
  ⟨h.fetching, fun p hp => Nat.lt_succ_of_lt (h.task_lt p hp), h.task_nodup, h.wait_le,
    h.wait_nodup⟩

theorem numbered_moment (attempts : Nat) (m : Run ρ φ σ) (n : Nat) :
    Moment attempts (view n m) (view (n + 1) m) :=
  .numbered (view n m)

/-! ### One act -/

variable (sup : Supplier ρ φ σ)

/-- A fetch begins and comes to its first turn. -/
theorem call_fetch_eq (m : Run ρ φ σ) (n : Nat) (scope : Option Nat) (entity id : String) :
    step sup n m (.call (.fetch scope entity id)) =
      turned m ⟨n, entity, id⟩ (Fetch.start (supplier sup) ⟨n, entity, id⟩
        (Shared.touch { m.shared with
          outer := Chronicle.write (.begun n (Record.key entity id)) m.shared.outer }
          scope (Record.key entity id))) := by
  simp only [step, Call.task, Machine.start, Task.run, Fetch.key]
  rcases h : Fetch.start (supplier sup) ⟨n, entity, id⟩ _ with ⟨s, r | phase⟩
  · rfl
  · rfl

/-- The turn that a fetch comes to when it is woken. -/
def wakeTurn (f : Fetch) (s : Shared ρ (Chronicle ρ φ σ)) (reply : Except φ (Option ρ)) :
    Fetch.Phase → Shared ρ (Chronicle ρ φ σ) × Fetch.Turn ρ φ
  | .pausing attempt left => f.proceed (supplier sup) attempt left s
  | .loading mark =>
      (f.finish mark reply { s with outer := Chronicle.write (.loaded f.task reply) s.outer },
        .answered reply)

/-- A fetch is woken and comes to another turn. -/
theorem wake_eq (h : Formed n m) {p : Parked ρ φ (Chronicle ρ φ σ) Unit} (hp : p ∈ m.parked)
    {phase : Fetch.Phase} (what : p.what = .fetching f phase (ending f.task f.key))
    (task : f.task = p.task) (find : m.parked.find? (·.task == f.task) = some p)
    (reply : Except φ (Option ρ)) :
    step sup n m (.wake f.task reply) =
      turned (without m f.task) f (wakeTurn sup f m.shared reply phase) := by
  simp only [step, find, Machine.release, h.find?_wait hp, h.filter_wait hp, Machine.resume, what,
    ← task]
  cases phase with
  | pausing attempt left =>
      simp only [wakeTurn]
      rcases f.proceed (supplier sup) attempt left m.shared with ⟨s, r | phase⟩ <;> rfl
  | loading mark => rfl

theorem wakeTurn_waits (s : Shared ρ (Chronicle ρ φ σ)) (reply : Except φ (Option ρ)) :
    ∀ phase, (wakeTurn sup f s reply phase).1.waits
      = s.waits + waitsOf (wakeTurn sup f s reply phase).2
  | .pausing attempt left => proceed_waits _ f attempt left s
  | .loading _ => rfl

/-- Those who are parked at a number are a fetch of that number. -/
theorem Formed.find? (h : Formed n m) {call : Nat} {p : Parked ρ φ (Chronicle ρ φ σ) Unit}
    (hf : m.parked.find? (·.task == call) = some p) :
    p ∈ m.parked ∧ ∃ f phase,
      p.what = .fetching f phase (ending f.task f.key) ∧ f.task = p.task ∧ f.task = call := by
  have hp := List.mem_of_find?_eq_some hf
  obtain ⟨f, phase, what, task⟩ := h.fetching p hp
  have hcall : p.task = call := by simpa using List.find?_some hf
  exact ⟨hp, f, phase, what, task, task.trans hcall⟩

/-- A move changes the cache, and the scopes if it leaves one. -/
theorem call_move_eq (m : Run ρ φ σ) (n : Nat) (mv : Move ρ) :
    step sup n m (.call (.move mv)) =
      { m with shared := (mv.apply { m.shared with
          outer := Chronicle.write (ofMove m.shared.scopes mv) m.shared.outer }).1 } :=
  rfl

theorem move_waits {τ : Type} (s : Shared ρ τ) (mv : Move ρ) : (mv.apply s).1.waits = s.waits := by
  cases mv <;> rfl

/-- A fetch is given up. -/
theorem cancel_eq {p : Parked ρ φ (Chronicle ρ φ σ) Unit} {phase : Fetch.Phase}
    (what : p.what = .fetching f phase (ending f.task f.key))
    (find : m.parked.find? (·.task == f.task) = some p) :
    step sup n m (.cancel f.task) =
      write (.cancelled f.task)
        { without m f.task with shared := f.giveUp phase m.shared } := by
  simp only [step, Machine.cancel, find, Machine.giveUp, what]
  rfl

theorem giveUp_waits {τ : Type} (s : Shared ρ τ) : ∀ phase, (f.giveUp phase s).waits = s.waits
  | .pausing _ _ => rfl
  | .loading _ => rfl

theorem Formed.of_waits (h : Formed n m) {s : Shared ρ (Chronicle ρ φ σ)}
    (hs : s.waits = m.shared.waits) : Formed n { m with shared := s } :=
  ⟨h.fetching, h.task_lt, h.task_nodup, fun p hp => hs ▸ h.wait_le p hp, h.wait_nodup⟩

theorem Formed.step (h : Formed n m) : ∀ a : Act ρ φ, Formed (n + 1) (step sup n m a)
  | .call (.fetch scope entity id) => by
      rw [call_fetch_eq]
      refine h.succ.turned (fun q hq => Nat.ne_of_lt (h.task_lt q hq)) (Nat.lt_succ_self n) ?_
      exact (proceed_waits _ _ _ _ _).trans (by cases scope <;> rfl)
  | .call (.move mv) => by
      rw [call_move_eq]
      exact h.succ.of_waits (move_waits _ mv)
  | .wake call reply => by
      cases hf : m.parked.find? (·.task == call) with
      | none =>
          simp only [Run.step, hf]
          exact h.succ
      | some p =>
          obtain ⟨hp, f, phase, what, task, rfl⟩ := h.find? hf
          rw [wake_eq sup h hp what task hf]
          exact (h.without f.task).succ.turned (without_others m f.task)
            (Nat.lt_succ_of_lt (task ▸ h.task_lt p hp)) (wakeTurn_waits sup m.shared reply phase)
  | .cancel call => by
      cases hf : m.parked.find? (·.task == call) with
      | none =>
          simp only [Run.step, Machine.cancel, hf]
          exact h.succ
      | some p =>
          obtain ⟨-, f, phase, what, -, rfl⟩ := h.find? hf
          rw [cancel_eq sup what hf]
          exact (h.without f.task).succ.of_waits (giveUp_waits m.shared phase)

/-- Where the call stands that a number finds. -/
theorem standingOf_find {f : Fetch} {p : Parked ρ φ (Chronicle ρ φ σ) Unit} {phase : Fetch.Phase}
    (what : p.what = .fetching f phase (ending f.task f.key))
    (find : m.parked.find? (·.task == f.task) = some p) :
    standingOf m.parked f.task = some (.ofPhase f.key phase) := by
  simp only [standingOf, find, Option.bind_some, ofParked, what]

theorem wakeTurn_moments (s : Shared ρ (Chronicle ρ φ σ)) (reply : Except φ (Option ρ))
    {standing : Nat → Option Standing} {phase : Fetch.Phase}
    (stands : standing f.task = some (.ofPhase f.key phase)) :
    Moments sup.attempts ⟨s.cache, s.outer.events, standing, n⟩
      (afterTurn f standing n (wakeTurn sup f s reply phase)) := by
  cases phase with
  | pausing attempt left => exact proceed_moments sup f s stands
  | loading mark =>
      have loaded : Moment sup.attempts ⟨s.cache, s.outer.events, standing, n⟩ _ :=
        .loaded stands reply
      refine .single ?_
      simpa [afterTurn, wakeTurn, finish_cache] using loaded

/-- Every act is a run of moments. -/
theorem step_moments (h : Formed n m) :
    ∀ a : Act ρ φ, Moments sup.attempts (view n m) (view (n + 1) (step sup n m a))
  | .call (.fetch scope entity id) => by
      rw [call_fetch_eq, view_turned fun q hq => Nat.ne_of_lt (h.task_lt q hq)]
      refine .head (.begun (view n m) (Record.key entity id)) ?_
      rw [← afterTurn_update _ _ (some (.looking (Record.key entity id) 0 sup.attempts))]
      exact start_moments sup ⟨n, entity, id⟩
        { m.shared with outer := Chronicle.write (.begun n (Record.key entity id)) m.shared.outer }
        scope (Function.update_self ..)
  | .call (.move mv) => by
      rw [call_move_eq]
      refine .tail (.single ?_) (numbered_moment sup.attempts _ n)
      cases mv with
      | put key record => exact .stored (view n m) key record
      | invalidate keys => exact .dropped (view n m) keys
      | clear => exact .cleared (view n m)
      | leave scope => exact .dropped (view n m) (m.shared.scopes.keys scope)
  | .wake call reply => by
      cases hf : m.parked.find? (·.task == call) with
      | none =>
          simp only [Run.step, hf]
          exact .single (numbered_moment sup.attempts m n)
      | some p =>
          obtain ⟨hp, f, phase, what, task, rfl⟩ := h.find? hf
          refine .tail ?_ (numbered_moment sup.attempts _ n)
          rw [wake_eq sup h hp what task hf, view_turned (without_others m f.task)]
          simp only [without, standingOf_filter, afterTurn_update]
          exact wakeTurn_moments sup m.shared reply (standingOf_find what hf)
  | .cancel call => by
      cases hf : m.parked.find? (·.task == call) with
      | none =>
          simp only [Run.step, Machine.cancel, hf]
          exact .single (numbered_moment sup.attempts m n)
      | some p =>
          obtain ⟨-, f, phase, what, -, rfl⟩ := h.find? hf
          refine .tail (.single ?_) (numbered_moment sup.attempts _ n)
          rw [cancel_eq sup what hf]
          have cancelled : Moment sup.attempts (view n m) _ :=
            .cancelled (standingOf_find what hf)
          simp only [view, write, without, standingOf_filter]
          cases phase <;> exact cancelled

theorem Formed.after :
    ∀ {n : Nat} {m : Run ρ φ σ}, Formed n m → ∀ acts : List (Act ρ φ),
      Formed (n + acts.length) (after sup n m acts)
  | _, _, h, [] => h
  | n, m, h, a :: as => by
      have hlen : n + (a :: as).length = n + 1 + as.length := by
        simp only [List.length_cons]
        omega
      rw [hlen]
      exact (h.step sup a).after as

theorem after_moments :
    ∀ {n : Nat} {m : Run ρ φ σ}, Formed n m → ∀ acts : List (Act ρ φ),
      Moments sup.attempts (view n m) (view (n + acts.length) (after sup n m acts))
  | _, _, _, [] => .refl
  | n, m, h, a :: as => by
      have hlen : n + (a :: as).length = n + 1 + as.length := by
        simp only [List.length_cons]
        omega
      rw [hlen]
      exact (step_moments sup h a).trans (after_moments (h.step sup a) as)

end Run

/-- **Every run is a run of moments**, from the view in which nothing has happened. -/
theorem run_moments (sup : Supplier ρ φ σ) (oracle : σ) (acts : List (Act ρ φ)) :
    Moments sup.attempts {} (Run.view acts.length (run sup oracle acts)) := by
  have h := Run.after_moments sup (Run.Formed.initial oracle) acts
  rwa [Nat.zero_add] at h

theorem run_formed (sup : Supplier ρ φ σ) (oracle : σ) (acts : List (Act ρ φ)) :
    Run.Formed acts.length (run sup oracle acts) := by
  have h := Run.Formed.after sup (Run.Formed.initial oracle) acts
  rwa [Nat.zero_add] at h

end Chronicle

end Toolbar
