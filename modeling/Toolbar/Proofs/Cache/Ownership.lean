/-
# `Toolbar.Proofs.Cache.Ownership` — every mark has a call that waits for its load

A mark that nobody takes away would keep its key loading for ever.  Whoever sets a mark waits for the
load under it, and takes the mark away when the wait is over, however it ends.

    a mark goes                                     its call
    when its load ends, or is given up              waits no more
    by a removal, a put or another mark             waits on, without the mark

So a mark of the cache always has its owner: one call, and no other, that waits for a load of the
mark's key (`Owned.owner`).  Where no fetch is under way there is no mark.
-/
import Toolbar.Proofs.Cache.Standing

namespace Toolbar.Chronicle

variable {ρ φ σ : Type}

/-! ## Calls that are under way -/

/-- A call has returned, or was given up. -/
def Over (n : Nat) (events : List (Event ρ φ)) : Prop :=
  (∃ key reply, .returned n key reply ∈ events) ∨ .cancelled n ∈ events

/-- A call has begun to fetch, and is not over. -/
def UnderWay (n : Nat) (events : List (Event ρ φ)) : Prop :=
  (∃ key, .begun n key ∈ events) ∧ ¬ Over n events

/-- Whether a call, or its load, ends. -/
def Event.isEnd (n : Nat) : Event ρ φ → Bool
  | .loaded n' _ | .cancelled n' | .returned n' _ _ => n' == n
  | _ => false

theorem Event.isEnd_call {n : Nat} {e : Event ρ φ} (h : e.isEnd n = true) : e.call? = some n := by
  cases e with
  | loaded | cancelled | returned => exact congrArg some (beq_iff_eq.mp h)
  | _ => cases h

theorem not_over {n : Nat} {events : List (Event ρ φ)} (h : ∀ e ∈ events, e.isEnd n = false) :
    ¬ Over n events := by
  rintro (⟨key, reply, hmem⟩ | hmem)
  · simpa [Event.isEnd] using h _ hmem
  · simpa [Event.isEnd] using h _ hmem

theorem not_ended {n : Nat} {events : List (Event ρ φ)} (h : ∀ e ∈ events, e.isEnd n = false) :
    ¬ Ended n events := by
  rintro (⟨reply, hmem⟩ | hmem)
  · simpa [Event.isEnd] using h _ hmem
  · simpa [Event.isEnd] using h _ hmem

/-! ## What all views of a run keep -/

/-- A mark has a call that waits under it; who waits for a load has asked for it, and who stands
somewhere has begun and not ended. -/
structure Owned (v : View ρ φ) : Prop where
  owner : ∀ key mark, v.cache.get? key = some (.loading mark) →
    ∃ n, v.standing n = some (.loading key mark)
  asked : ∀ n key mark, v.standing n = some (.loading key mark) → .asked n key ∈ v.events
  begun : ∀ n st, v.standing n = some st → ∃ key, .begun n key ∈ v.events
  open_still : ∀ n st, v.standing n = some st → ∀ e ∈ v.events, e.isEnd n = false

theorem Owned.initial : Owned ({} : View ρ φ) := by
  constructor <;> simp [Cache.get?]

section Preserve

variable {attempts : Nat} {v v' : View ρ φ}

/-- The call that waits under the mark of a key goes on waiting while the mark stays. -/
theorem Moment.keeps_owner (step : Moment attempts v v') (orderly : Orderly v) {n : Nat}
    {key : String} {mark : Nat} (stands : v.standing n = some (.loading key mark))
    (before : v.cache.get? key = some (.loading mark))
    (behind : v'.cache.get? key = some (.loading mark)) :
    v'.standing n = some (.loading key mark) := by
  have holds : v.cache.holds key mark = true := Cache.holds_iff.mpr before
  have other : ∀ {k : Nat} {x : Option Standing}, k ≠ n →
      Function.update v.standing k x n = some (.loading key mark) := fun hne => by
    rw [Function.update_of_ne hne.symm]
    exact stands
  cases step with
  | begun => exact other (Nat.ne_of_gt (orderly.standing_lt n _ stands))
  | hit looks | paused looks | asked looks =>
      refine other ?_
      rintro rfl
      cases stands.symm.trans looks
  -- A load that ends or is given up under the mark takes it away.
  | @loaded k _ _ waits reply =>
      refine other ?_
      rintro rfl
      cases stands.symm.trans waits
      rw [Cache.get?_conclude, if_pos ⟨rfl, holds⟩] at behind
      cases reply <;> cases behind
  | @cancelled k _ waits =>
      refine other ?_
      rintro rfl
      cases stands.symm.trans waits
      rw [Standing.giveUp, Cache.get?_abandon, if_pos ⟨rfl, holds⟩] at behind
      cases behind
  | stored | dropped | cleared | numbered => exact stands

theorem Owned.preserve_owner (h : Owned v) (orderly : Orderly v) (step : Moment attempts v v') :
    ∀ key mark, v'.cache.get? key = some (.loading mark) →
      ∃ n, v'.standing n = some (.loading key mark) := by
  intro key mark hget
  rcases step.loading_entry hget with before | ⟨n, rfl, stands, -, -⟩
  · obtain ⟨n, stands⟩ := h.owner key mark before
    exact ⟨n, step.keeps_owner orderly stands before hget⟩
  · exact ⟨n, stands⟩

theorem Owned.preserve_asked (h : Owned v) (step : Moment attempts v v') :
    ∀ n key mark, v'.standing n = some (.loading key mark) → .asked n key ∈ v'.events := by
  intro n key mark hst
  rcases step.loading_call hst with before | ⟨-, -, -, hasked, -⟩
  · obtain ⟨new, hev⟩ := step.events_append
    rw [hev]
    exact List.mem_append_left _ (h.asked n key mark before)
  · rw [hasked]
    exact List.mem_append_right _ List.mem_cons_self

/-- Who stands somewhere stood somewhere before, or has just begun. -/
theorem Moment.standing_before (step : Moment attempts v v') {n : Nat} {st : Standing}
    (h : v'.standing n = some st) :
    (∃ st', v.standing n = some st') ∨ n = v.next ∧ ∃ key, v'.events = v.events ++ [.begun n key] := by
  cases step with
  | begun key =>
      rcases update_eq_some.mp h with ⟨rfl, -⟩ | ⟨-, hold⟩
      · exact .inr ⟨rfl, key, rfl⟩
      · exact .inl ⟨st, hold⟩
  | hit | loaded | cancelled =>
      rcases update_eq_some.mp h with ⟨-, h⟩ | ⟨-, hold⟩
      · cases h
      · exact .inl ⟨st, hold⟩
  | paused stands | asked stands =>
      rcases update_eq_some.mp h with ⟨rfl, -⟩ | ⟨-, hold⟩
      · exact .inl ⟨_, stands⟩
      · exact .inl ⟨st, hold⟩
  | stored | dropped | cleared | numbered => exact .inl ⟨st, h⟩

theorem Owned.preserve_begun (h : Owned v) (step : Moment attempts v v') :
    ∀ n st, v'.standing n = some st → ∃ key, .begun n key ∈ v'.events := by
  intro n st hst
  rcases step.standing_before hst with ⟨st', before⟩ | ⟨-, key, hev⟩
  · obtain ⟨key, hbegun⟩ := h.begun n st' before
    obtain ⟨new, hev⟩ := step.events_append
    rw [hev]
    exact ⟨key, List.mem_append_left _ hbegun⟩
  · rw [hev]
    exact ⟨key, List.mem_append_right _ List.mem_cons_self⟩

/-- Who stands somewhere after a moment has not ended in it. -/
theorem Moment.not_end (step : Moment attempts v v') {n : Nat} {st : Standing}
    (h : v'.standing n = some st) {new : List (Event ρ φ)} (hev : v'.events = v.events ++ new) :
    ∀ e ∈ new, e.isEnd n = false := by
  have of_eq : ∀ new', v'.events = v.events ++ new' → (∀ e ∈ new', e.isEnd n = false) →
      ∀ e ∈ new, e.isEnd n = false := by
    intro new' hev' hnew'
    rw [List.append_cancel_left (hev.symm.trans hev')]
    exact hnew'
  cases step with
  | hit | loaded | cancelled =>
      rcases update_eq_some.mp h with ⟨-, h⟩ | ⟨hne, -⟩
      · cases h
      · exact of_eq _ rfl (by simpa [Event.isEnd] using Ne.symm hne)
  | begun | paused | asked | stored | dropped | cleared =>
      exact of_eq _ rfl (by simp [Event.isEnd])
  | numbered => exact of_eq [] (List.append_nil _).symm (by simp)

theorem Owned.preserve_open_still (h : Owned v) (orderly : Orderly v)
    (step : Moment attempts v v') :
    ∀ n st, v'.standing n = some st → ∀ e ∈ v'.events, e.isEnd n = false := by
  intro n st hst e he
  obtain ⟨new, hev⟩ := step.events_append
  rw [hev] at he
  rcases List.mem_append.mp he with hold | hnew
  · rcases step.standing_before hst with ⟨st', before⟩ | ⟨rfl, -, -⟩
    · exact h.open_still n st' before e hold
    · -- A call that has just begun has a number that no event has.
      refine Bool.eq_false_iff.mpr fun hend => ?_
      exact Nat.lt_irrefl _ (orderly.call_lt e hold _ (Event.isEnd_call hend))
  · exact step.not_end hst hev e hnew

theorem Owned.step (h : Owned v) (orderly : Orderly v) (step : Moment attempts v v') :
    Owned v' where
  owner := h.preserve_owner orderly step
  asked := h.preserve_asked step
  begun := h.preserve_begun step
  open_still := h.preserve_open_still orderly step

theorem Owned.of_moments (steps : Moments attempts {} v) : Owned v := by
  induction steps with
  | refl => exact .initial
  | tail before step ih => exact ih.step (.of_moments before) step

end Preserve

/-! ## Owners among those who wait -/

/-- A parked call waits for the load of a key under a mark. -/
def Loads (key : String) (mark : Nat) (p : Parked ρ φ (Chronicle ρ φ σ) Unit) : Prop :=
  ∃ f next, p.what = .fetching f (.loading mark) next ∧ f.key = key

namespace Run

variable {n : Nat} {m : Run ρ φ σ} {key : String} {mark : Nat}

theorem Formed.find?_task (h : Formed n m) {p : Parked ρ φ (Chronicle ρ φ σ) Unit}
    (hp : p ∈ m.parked) : m.parked.find? (·.task == p.task) = some p :=
  Keyed.find?_of_nodup h.task_nodup hp

/-- Who waits for a load stands there. -/
theorem Formed.standing_of_loads (h : Formed n m) {p : Parked ρ φ (Chronicle ρ φ σ) Unit}
    (hp : p ∈ m.parked) (loads : Loads key mark p) :
    (view n m).standing p.task = some (.loading key mark) := by
  obtain ⟨f, next, what, rfl⟩ := loads
  simp only [view, standingOf, h.find?_task hp, Option.bind_some, ofParked, what]
  rfl

/-- Who stands waiting for a load is parked with it. -/
theorem loads_of_standing {k : Nat}
    (stands : (view n m).standing k = some (.loading key mark)) :
    ∃ p ∈ m.parked, p.task = k ∧ Loads key mark p := by
  obtain ⟨p, hfind, hp⟩ := Option.bind_eq_some_iff.mp stands
  have htask : p.task = k := by simpa using List.find?_some hfind
  refine ⟨p, List.mem_of_find?_eq_some hfind, htask, ?_⟩
  unfold ofParked at hp
  split at hp
  next f phase next what =>
    cases phase with
    | pausing => cases hp
    | loading mark' =>
        cases hp
        exact ⟨f, next, what, rfl⟩
  next => cases hp

end Run

/-- **No mark without its owner.**  Whatever the schedule: each mark in the cache is that of exactly
one parked call, which has asked for the load of the mark's key and whose load is still on its way.
So while no fetch is under way the cache calls no key pending. -/
theorem mark_owned (sup : Supplier ρ φ σ) (oracle : σ) (acts : List (Act ρ φ)) :
    let m := run sup oracle acts
    (∀ key mark, m.cache.get? key = some (.loading mark) →
      ∃ p ∈ m.parked, Loads key mark p ∧ Outstanding p.task key m.events ∧
        ∀ q ∈ m.parked, ∀ key', Loads key' mark q → q = p) ∧
    ((∀ n, ¬ UnderWay n m.events) →
      ∀ entity id, m.cache.status (Record.key entity id) ≠ .pending) := by
  intro m
  have steps := run_moments sup oracle acts
  have formed := run_formed sup oracle acts
  have owned : Owned (Run.view acts.length m) := .of_moments steps
  have orderly : Orderly (Run.view acts.length m) := .of_moments steps
  constructor
  · intro key mark hget
    obtain ⟨n, stands⟩ := owned.owner key mark hget
    obtain ⟨p, hp, rfl, loads⟩ := Run.loads_of_standing stands
    refine ⟨p, hp, loads, ⟨?_, ?_⟩, fun q hq key' loads' => ?_⟩
    · exact owned.asked p.task key mark stands
    · exact not_ended (owned.open_still p.task _ stands)
    · have same : q.task = p.task :=
        orderly.loading_inj _ _ _ _ mark (formed.standing_of_loads hq loads') stands
      exact List.inj_on_of_nodup_map formed.task_nodup hq hp same
  · intro calm entity id hpending
    have hget : ∃ mark, m.cache.get? (Record.key entity id) = some (.loading mark) := by
      unfold Cache.status at hpending
      split at hpending
      next => cases hpending
      next mark hget => exact ⟨mark, hget⟩
      next => cases hpending
    obtain ⟨mark, hget⟩ := hget
    obtain ⟨n, stands⟩ := owned.owner _ mark hget
    exact calm n ⟨owned.begun n _ stands, not_over (owned.open_still n _ stands)⟩

/-- A fetch takes over the mark of another, whose load ends first; then it is given up. -/
def takeover : List (Act Nat String) :=
  [.call (.fetch none "task" "1"), .call (.fetch none "task" "1"), .wake 1 (.ok none),
    .wake 0 (.ok (some 7)), .cancel 1]

/-- After the takeover the mark is that of the second fetch, which the end of the first load does not
touch; when both are over, no key is pending. -/
theorem takeover_owned :
    (∃ p ∈ (run (patient 1) () (takeover.take 4)).parked, p.task = 1 ∧ Loads "task:1" 1 p ∧
      Outstanding p.task "task:1" (run (patient 1) () (takeover.take 4)).events) ∧
    (run (patient 1) () takeover).cache.status (Record.key "task" "1") ≠ .pending := by
  obtain ⟨owner, -⟩ := mark_owned (patient 1) () (takeover.take 4)
  obtain ⟨-, calm⟩ := mark_owned (patient 1) () takeover
  constructor
  · obtain ⟨p, hp, loads, outstanding, -⟩ := owner "task:1" 1 (by decide +kernel)
    have tasks : ∀ q ∈ (run (patient 1) () (takeover.take 4)).parked, q.task = 1 := by
      decide +kernel
    exact ⟨p, hp, tasks p hp, loads, outstanding⟩
  · refine calm (fun n ⟨⟨key, hbegun⟩, hopen⟩ => hopen ?_) "task" "1"
    have events : (run (patient 1) () takeover).events =
        [.begun 0 "task:1", .asked 0 "task:1", .begun 1 "task:1", .paused 1, .asked 1 "task:1",
          .loaded 0 (.ok (some 7)), .returned 0 "task:1" (.ok (some 7)), .cancelled 1] := by
      decide +kernel
    rw [events] at hbegun ⊢
    have which : n = 0 ∨ n = 1 := by
      simp only [List.mem_cons, Event.begun.injEq, reduceCtorEq, List.not_mem_nil, or_false,
        false_or] at hbegun
      exact hbegun.imp And.left And.left
    rcases which with rfl | rfl
    · exact .inl ⟨"task:1", .ok (some 7), by simp⟩
    · exact .inr (by simp)

end Toolbar.Chronicle
