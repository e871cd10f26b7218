/-
# `Toolbar.Proofs.Cache.Freshness` — a fetch returns nothing older than the last removal

When the keys of a record are invalidated, or the cache is cleared, whoever begins to fetch the
record afterwards must not be given what was known before.  Two things could bring an old record
back: an entry that was left in the cache, and a load that was on its way.

    old record comes from      why it does not come back
    an entry                   a removal takes the entry away
    a load on its way          a removal takes its mark away, and without its mark a load is not kept

So the record of an entry was put, or its load was asked for, since every removal of its key
(`Fresh.ready_supplied`).  The load under the mark of a key was asked for since every removal
(`Fresh.loading_asked`), which keeps this when the load ends.
-/
import Toolbar.Proofs.Cache.Standing

namespace Toolbar.Chronicle

variable {ρ φ σ : Type}

/-! ## Removals and supplies -/

/-- Whether an event takes the entry of a key away, whatever it is. -/
def Event.removes (key : String) : Event ρ φ → Bool
  | .dropped keys => keys.contains key
  | .cleared => true
  | _ => false

/-- Whether a call begins. -/
def Event.isBegun (n : Nat) : Event ρ φ → Bool
  | .begun n' _ => n' == n
  | _ => false

/-- The record was put, or a load gave the reply that was asked for. -/
def Supplied (key : String) (reply : Except φ (Option ρ)) (events : List (Event ρ φ)) : Prop :=
  (∃ record, reply = .ok record ∧ .stored key record ∈ events) ∨
    ∃ n, [.asked n key, .loaded n reply].Sublist events

theorem Supplied.append {key : String} {reply : Except φ (Option ρ)} {events : List (Event ρ φ)}
    (new : List (Event ρ φ)) : Supplied key reply events → Supplied key reply (events ++ new)
  | .inl ⟨record, hreply, hmem⟩ => .inl ⟨record, hreply, List.mem_append_left _ hmem⟩
  | .inr ⟨n, hsub⟩ => .inr ⟨n, hsub.trans (List.sublist_append_left _ _)⟩

/-- A load that was asked for and now ends supplies its reply. -/
theorem supplied_of_asked {key : String} {n : Nat} {events : List (Event ρ φ)}
    (asked : .asked n key ∈ events) (reply : Except φ (Option ρ)) (new : List (Event ρ φ)) :
    Supplied key reply (events ++ .loaded n reply :: new) := by
  have hasked : [Event.asked n key].Sublist events := List.singleton_sublist.mpr asked
  have hloaded : [Event.loaded n reply].Sublist (.loaded n reply :: new) :=
    List.singleton_sublist.mpr List.mem_cons_self
  exact .inr ⟨n, hasked.append hloaded⟩

/-- Where there is an entry, nothing has just removed it. -/
theorem Moment.not_removed {attempts : Nat} {v v' : View ρ φ} (step : Moment attempts v v')
    {key : String} {entry : Cache.Entry ρ} (h : v'.cache.get? key = some entry)
    {new : List (Event ρ φ)} (hev : v'.events = v.events ++ new) :
    ∀ e ∈ new, e.removes key = false := by
  have of_eq : ∀ new', v'.events = v.events ++ new' → (∀ e ∈ new', e.removes key = false) →
      ∀ e ∈ new, e.removes key = false := by
    intro new' hev' hnew'
    rw [List.append_cancel_left (hev.symm.trans hev')]
    exact hnew'
  cases step with
  | begun | hit | paused | asked | loaded | cancelled | stored =>
      exact of_eq _ rfl (by simp [Event.removes])
  | dropped keys =>
      rw [Cache.get?_invalidate] at h
      split at h
      next => cases h
      next hkey => exact of_eq _ rfl (by simpa [Event.removes] using hkey)
  | cleared => cases h
  | numbered => exact of_eq [] (List.append_nil _).symm (by simp)

/-- What is known since every removal of a key is so still while the key has an entry. -/
theorem Moment.since_removal {attempts : Nat} {v v' : View ρ φ} (step : Moment attempts v v')
    {key : String} {entry : Cache.Entry ρ} (h : v'.cache.get? key = some entry)
    {new : List (Event ρ φ)} (hev : v'.events = v.events ++ new) {P : List (Event ρ φ) → Prop}
    (hP : Since (·.removes key) (fun newer => P (newer ++ new)) v.events) :
    Since (·.removes key) P v'.events := by
  have hnew := step.not_removed h hev
  rw [hev]
  exact hP.append hnew

/-! ## What all views of a run keep -/

/-- Entries and marks are newer than every removal of their key. -/
structure Fresh (v : View ρ φ) : Prop where
  ready_supplied : ∀ key record, v.cache.get? key = some (.ready record) →
    Since (·.removes key) (Supplied key (.ok record)) v.events
  loading_asked : ∀ n key mark, v.standing n = some (.loading key mark) →
    v.cache.get? key = some (.loading mark) →
      Since (·.removes key) (.asked n key ∈ ·) v.events
  begun_asked : ∀ n key mark, v.standing n = some (.loading key mark) →
    Since (·.isBegun n) (.asked n key ∈ ·) v.events
  returned_supplied : Upon (fun past e => ∀ n key reply, e = .returned n key reply →
    Since (·.removes key) (fun mid => .begun n key ∈ mid → Supplied key reply mid) past) v.events

theorem Fresh.initial : Fresh ({} : View ρ φ) := by
  constructor <;> simp [Cache.get?, upon_nil]

section Preserve

variable {attempts : Nat} {v v' : View ρ φ}

theorem Fresh.preserve_ready_supplied (h : Fresh v) (step : Moment attempts v v') :
    ∀ key record, v'.cache.get? key = some (.ready record) →
      Since (·.removes key) (Supplied key (.ok record)) v'.events := by
  intro key record hget
  rcases step.ready_entry hget with hold | hstored | ⟨n, mark, hst, hmark, hloaded⟩
  · obtain ⟨new, hev⟩ := step.events_append
    exact step.since_removal hget hev ((h.ready_supplied key record hold).imp fun _ => .append new)
  · refine step.since_removal hget hstored fun _ _ newer _ _ => ?_
    exact .inl ⟨record, rfl, List.mem_append_right _ List.mem_cons_self⟩
  · refine step.since_removal hget hloaded ?_
    exact (h.loading_asked n key mark hst hmark).imp fun _ hasked => supplied_of_asked hasked _ _

theorem Fresh.preserve_loading_asked (h : Fresh v) (orderly : Orderly v)
    (step : Moment attempts v v') :
    ∀ n key mark, v'.standing n = some (.loading key mark) →
      v'.cache.get? key = some (.loading mark) →
        Since (·.removes key) (.asked n key ∈ ·) v'.events := by
  intro n key mark hst hget
  rcases step.loading_call hst with hold | ⟨-, -, -, hasked, -⟩
  · have hmark : v.cache.get? key = some (.loading mark) := by
      refine (step.loading_entry hget).resolve_right fun ⟨_, heq, _⟩ => ?_
      exact Nat.ne_of_lt (orderly.loading_lt n key mark hold) heq
    obtain ⟨new, hev⟩ := step.events_append
    refine step.since_removal hget hev ?_
    exact (h.loading_asked n key mark hold hmark).imp fun _ hmem => List.mem_append_left _ hmem
  · refine step.since_removal hget hasked fun _ _ newer _ _ => ?_
    exact List.mem_append_right _ List.mem_cons_self

theorem Fresh.preserve_begun_asked (h : Fresh v) (orderly : Orderly v)
    (step : Moment attempts v v') :
    ∀ n key mark, v'.standing n = some (.loading key mark) →
      Since (·.isBegun n) (.asked n key ∈ ·) v'.events := by
  intro n key mark hst
  rcases step.loading_call hst with hold | ⟨-, -, -, hasked, -⟩
  · have keep : ∀ new : List (Event ρ φ), (∀ e ∈ new, e.isBegun n = false) →
        Since (·.isBegun n) (.asked n key ∈ ·) (v.events ++ new) := fun new hnew =>
      .append ((h.begun_asked n key mark hold).imp fun _ hmem => List.mem_append_left _ hmem) hnew
    cases step with
    | begun =>
        have hne : v.next ≠ n := Nat.ne_of_gt (orderly.standing_lt n _ hold)
        exact keep _ (by simpa [Event.isBegun] using hne)
    | hit | paused | asked | loaded | cancelled | stored | dropped | cleared =>
        exact keep _ (by simp [Event.isBegun])
    | numbered => exact h.begun_asked n key mark hold
  · rw [hasked]
    refine .append (fun _ _ newer _ _ => ?_) (by simp [Event.isBegun])
    exact List.mem_append_right _ List.mem_cons_self

/-- A call that waits for its load has asked for it since every removal before which it began. -/
theorem Fresh.asked_of_begun (h : Fresh v) {n : Nat} {key : String} {mark : Nat}
    (stands : v.standing n = some (.loading key mark)) :
    Since (·.removes key) (fun mid => .begun n key ∈ mid → .asked n key ∈ mid) v.events := by
  intro older gone mid heq _ hbegun
  obtain ⟨before, after, rfl⟩ := List.append_of_mem hbegun
  have hasked : .asked n key ∈ after := by
    refine h.begun_asked n key mark stands (older ++ gone :: before) (.begun n key) after ?_ ?_
    · rw [heq]
      simp
    · exact beq_self_eq_true n
  exact List.mem_append_right _ (List.mem_cons_of_mem _ hasked)

theorem Fresh.preserve_returned_supplied (h : Fresh v) (step : Moment attempts v v') :
    Upon (fun past e => ∀ n key reply, e = .returned n key reply →
      Since (·.removes key) (fun mid => .begun n key ∈ mid → Supplied key reply mid) past)
        v'.events := by
  cases step with
  | @hit n key _ _ record _ is_ready =>
      refine upon_concat.mpr ⟨h.returned_supplied, ?_⟩
      intro n key reply he
      cases he
      have hget := Cache.record?_eq_some_iff.mp is_ready
      exact (h.ready_supplied key _ hget).imp fun _ hsupplied _ => hsupplied
  | @loaded n key mark stands reply =>
      refine upon_append_pair.mpr ⟨⟨h.returned_supplied, by simp⟩, ?_⟩
      intro n key reply he
      cases he
      refine .append ?_ (by simp [Event.removes])
      refine (h.asked_of_begun stands).imp fun mid hasked hbegun => ?_
      have hbegun : .begun n key ∈ mid := by simpa using hbegun
      exact supplied_of_asked (hasked hbegun) reply []
  | begun | paused | asked | cancelled | stored | dropped | cleared =>
      exact upon_concat.mpr ⟨h.returned_supplied, by simp⟩
  | numbered => exact h.returned_supplied

theorem Fresh.step (h : Fresh v) (orderly : Orderly v) (step : Moment attempts v v') :
    Fresh v' where
  ready_supplied := h.preserve_ready_supplied step
  loading_asked := h.preserve_loading_asked orderly step
  begun_asked := h.preserve_begun_asked orderly step
  returned_supplied := h.preserve_returned_supplied step

theorem Fresh.of_moments (steps : Moments attempts {} v) : Fresh v := by
  induction steps with
  | refl => exact .initial
  | tail before step ih => exact ih.step (.of_moments before) step

end Preserve

/-! ## The end of a load -/

/-- A fetch that waits for its load and is woken returns the reply of the load. -/
theorem Run.wake_loading (sup : Supplier ρ φ σ) {n k : Nat} {m : Run ρ φ σ}
    (formed : Run.Formed n m) {key : String} {mark : Nat}
    (stands : (Run.view n m).standing k = some (.loading key mark))
    (reply : Except φ (Option ρ)) :
    (Run.step sup n m (.wake k reply)).cache = m.cache.conclude key mark reply ∧
      (Run.step sup n m (.wake k reply)).events =
        m.events ++ [.loaded k reply, .returned k key reply] := by
  cases find : m.parked.find? (·.task == k) with
  | none => simp [Run.view, standingOf, find] at stands
  | some p =>
      obtain ⟨hp, f, phase, what, task, rfl⟩ := formed.find? find
      have hst : standingOf m.parked f.task = some (.loading key mark) := stands
      rw [Run.standingOf_find what find] at hst
      cases phase with
      | pausing attempt left => cases hst
      | loading mark' =>
          cases hst
          rw [Run.wake_eq sup formed hp what task find]
          refine ⟨finish_cache f mark reply _, ?_⟩
          simp [Run.wakeTurn, Run.turned, Run.without, Run.events]

/-- A load that was on its way when its key was removed has lost its mark. -/
theorem Fresh.mark_lost {v : View ρ φ} (h : Fresh v) (orderly : Orderly v) {n : Nat} {key : String}
    {mark : Nat} (stands : v.standing n = some (.loading key mark))
    {older newer : List (Event ρ φ)} {gone : Event ρ φ} (split : v.events = older ++ gone :: newer)
    (removes : gone.removes key = true) (asked : .asked n key ∈ older) :
    v.cache.get? key ≠ some (.loading mark) := by
  intro hget
  have again : .asked n key ∈ newer :=
    h.loading_asked n key mark stands hget older gone newer split removes
  obtain ⟨before, after, rfl⟩ := List.append_of_mem asked
  refine orderly.asked_once n before (.asked n key) (after ++ gone :: newer) ?_ ?_ key ?_
  · rw [split]
    simp
  · exact beq_self_eq_true n
  · exact List.mem_append_right _ (List.mem_cons_of_mem _ again)

/-- **A fetch that begins after a removal returns what was put, or was asked for, after it.**  So
does the cache keep nothing else for the key, and a load that was on its way at the removal changes
nothing when it ends, while its own call returns its reply. -/
theorem fetch_fresh (sup : Supplier ρ φ σ) (oracle : σ) (acts : List (Act ρ φ))
    {older newer : List (Event ρ φ)} {gone : Event ρ φ} {key : String}
    (split : (run sup oracle acts).events = older ++ gone :: newer)
    (removes : gone.removes key = true) :
    (∀ mid later n reply, newer = mid ++ .returned n key reply :: later →
      .begun n key ∈ mid → Supplied key reply mid) ∧
    (∀ record, (run sup oracle acts).cache.get? key = some (.ready record) →
      Supplied key (.ok record) newer) ∧
    (∀ n, .asked n key ∈ older → ¬ Ended n (run sup oracle acts).events → ∀ reply,
      let after := Run.step sup acts.length (run sup oracle acts) (.wake n reply)
      after.cache = (run sup oracle acts).cache ∧
        after.events =
          (run sup oracle acts).events ++ [.loaded n reply, .returned n key reply]) := by
  have steps := run_moments sup oracle acts
  have fresh : Fresh (Run.view acts.length (run sup oracle acts)) := .of_moments steps
  have orderly : Orderly (Run.view acts.length (run sup oracle acts)) := .of_moments steps
  refine ⟨fun mid later n reply hnewer hbegun => ?_, fun record hget => ?_,
    fun n hasked hend reply => ?_⟩
  · have hsplit : (run sup oracle acts).events =
        (older ++ gone :: mid) ++ .returned n key reply :: later := by
      rw [split, hnewer]
      simp
    exact fresh.returned_supplied _ _ _ hsplit n key reply rfl older gone mid rfl removes hbegun
  · exact fresh.ready_supplied key record hget older gone newer split removes
  · have hmem : .asked n key ∈ (run sup oracle acts).events := by
      rw [split]
      exact List.mem_append_left _ hasked
    obtain ⟨mark, stands⟩ := orderly.standing_of_outstanding ⟨hmem, hend⟩
    obtain ⟨hcache, hevents⟩ := Run.wake_loading sup (run_formed sup oracle acts) stands reply
    refine ⟨hcache.trans ?_, hevents⟩
    exact Cache.conclude_of_not_holds (fresh.mark_lost orderly stands split removes hasked) reply

/-- Two fetches of a key that is invalidated in between; the second is served first. -/
def overtaking : List (Act Nat String) :=
  [.call (.fetch none "task" "1"), .call (.move (.invalidate ["task:1"])),
    .call (.fetch none "task" "1"), .wake 2 (.ok (some 7))]

theorem overtaking_fresh :
    let m := run (patient 2) () overtaking
    m.events = [.begun 0 "task:1", .asked 0 "task:1"] ++ .dropped ["task:1"] ::
      [.begun 2 "task:1", .asked 2 "task:1", .loaded 2 (.ok (some 7)),
        .returned 2 "task:1" (.ok (some 7))] ∧
    Supplied "task:1" (.ok (some 7) : Except String (Option Nat))
      [.begun 2 "task:1", .asked 2 "task:1", .loaded 2 (.ok (some 7))] ∧
    (Run.step (patient 2) 4 m (.wake 0 (.ok (some 3)))).cache = m.cache ∧
    m.cache.get? "task:1" = some (.ready (some 7)) := by
  intro m
  have split : m.events = [.begun 0 "task:1", .asked 0 "task:1"] ++ .dropped ["task:1"] ::
      [.begun 2 "task:1", .asked 2 "task:1", .loaded 2 (.ok (some 7)),
        .returned 2 "task:1" (.ok (some 7))] := by decide +kernel
  have removes : (Event.dropped ["task:1"] : Event Nat String).removes "task:1" = true := by decide
  obtain ⟨returns, -, ends⟩ := fetch_fresh (patient 2) () overtaking split removes
  have open_still : ¬ Ended 0 m.events := by simp [split, Ended]
  exact ⟨split, returns _ [] 2 _ rfl (by simp),
    (ends 0 (by simp) open_still (.ok (some 3))).1, rfl⟩

end Toolbar.Chronicle
