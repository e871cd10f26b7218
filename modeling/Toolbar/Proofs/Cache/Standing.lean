/-
# `Toolbar.Proofs.Cache.Standing` — calls, marks and loads match

What every run over one cache keeps, whatever its schedule: a call that stands somewhere has begun,
marks in use were handed out, two calls never wait under one mark, and a call asks for one load at
most, for which it waits until the load ends or the call is given up.

`Since q P` and `Upon Q` are how the later modules speak of time: of what was seen after each event
of a kind, and of what was seen before each event.
-/
import Toolbar.Proofs.Cache.Moment

namespace Toolbar.Chronicle

open Function (update)

variable {ρ φ σ : Type}

/-! ## What was seen since -/

/-- `P` holds of what was seen after each event of the kind `q`. -/
def Since (q : Event ρ φ → Bool) (P : List (Event ρ φ) → Prop) (events : List (Event ρ φ)) : Prop :=
  ∀ older e newer, events = older ++ e :: newer → q e = true → P newer

theorem Since.imp {q : Event ρ φ → Bool} {P Q : List (Event ρ φ) → Prop}
    {events : List (Event ρ φ)} (h : Since q P events) (hPQ : ∀ newer, P newer → Q newer) :
    Since q Q events :=
  fun older e newer heq hq => hPQ newer (h older e newer heq hq)

theorem since_nil (q : Event ρ φ → Bool) (P : List (Event ρ φ) → Prop) : Since q P [] :=
  fun older e newer heq _ => absurd heq.symm (by simp)

theorem since_cons {q : Event ρ φ → Bool} {P : List (Event ρ φ) → Prop} {e : Event ρ φ}
    {events : List (Event ρ φ)} :
    Since q P (e :: events) ↔ (q e = true → P events) ∧ Since q P events := by
  constructor
  · intro h
    exact ⟨h [] e events rfl, fun older e' newer heq => h (e :: older) e' newer (by rw [heq]; rfl)⟩
  · intro ⟨hP, h⟩ older e' newer heq hq
    cases older with
    | nil =>
        obtain ⟨rfl, rfl⟩ := List.cons.inj heq
        exact hP hq
    | cons e'' older =>
        obtain ⟨-, heq⟩ := List.cons.inj heq
        exact h older e' newer heq hq

/-- New events are seen after all old ones. -/
theorem since_append {q : Event ρ φ → Bool} {P : List (Event ρ φ) → Prop}
    {events new : List (Event ρ φ)} :
    Since q P (events ++ new) ↔
      Since q (fun newer => P (newer ++ new)) events ∧ Since q P new := by
  induction events with
  | nil => simp [since_nil]
  | cons e events ih => rw [List.cons_append, since_cons, since_cons, ih, and_assoc]

/-- Nothing is said of what was seen after events of another kind. -/
theorem since_of_forall {q : Event ρ φ → Bool} {P : List (Event ρ φ) → Prop}
    {events : List (Event ρ φ)} (h : ∀ e ∈ events, q e = false) : Since q P events := by
  intro older e newer heq hq
  rw [h e (heq ▸ List.mem_append_right _ List.mem_cons_self)] at hq
  exact Bool.noConfusion hq

/-- New events of another kind are only seen after the old ones. -/
theorem Since.append {q : Event ρ φ → Bool} {P : List (Event ρ φ) → Prop}
    {events new : List (Event ρ φ)} (h : Since q (fun newer => P (newer ++ new)) events)
    (hnew : ∀ e ∈ new, q e = false) : Since q P (events ++ new) :=
  since_append.mpr ⟨h, since_of_forall hnew⟩

/-- `Q` holds of each event and what was seen before it. -/
def Upon (Q : List (Event ρ φ) → Event ρ φ → Prop) (events : List (Event ρ φ)) : Prop :=
  ∀ past e newer, events = past ++ e :: newer → Q past e

theorem upon_nil (Q : List (Event ρ φ) → Event ρ φ → Prop) : Upon Q [] :=
  fun past e newer heq => absurd heq.symm (by simp)

theorem upon_concat {Q : List (Event ρ φ) → Event ρ φ → Prop} {e : Event ρ φ}
    {events : List (Event ρ φ)} : Upon Q (events ++ [e]) ↔ Upon Q events ∧ Q events e := by
  constructor
  · intro h
    exact ⟨fun past e' newer heq => h past e' (newer ++ [e]) (by rw [heq]; simp), h _ e [] rfl⟩
  · intro ⟨h, he⟩ past e' newer heq
    rcases List.eq_nil_or_concat newer with rfl | ⟨newer, last, rfl⟩
    · obtain ⟨rfl, hlast⟩ := List.append_inj' heq rfl
      cases hlast
      exact he
    · have hsplit : events ++ [e] = (past ++ e' :: newer) ++ [last] := by
        rw [heq, List.concat_eq_append]
        simp
      exact h past e' newer (List.append_inj' hsplit rfl).1

theorem upon_append_pair {Q : List (Event ρ φ) → Event ρ φ → Prop} {e e' : Event ρ φ}
    {events : List (Event ρ φ)} :
    Upon Q (events ++ [e, e']) ↔ (Upon Q events ∧ Q events e) ∧ Q (events ++ [e]) e' := by
  rw [← upon_concat, ← upon_concat, List.append_assoc, List.singleton_append]

/-! ## Calls in events -/

/-- The call that an event is about. -/
def Event.call? : Event ρ φ → Option Nat
  | .begun n _ | .paused n | .asked n _ | .loaded n _ | .cancelled n | .returned n _ _ => some n
  | .stored _ _ | .dropped _ | .cleared => none

/-- Whether the loader is called for a call. -/
def Event.isAsked (n : Nat) : Event ρ φ → Bool
  | .asked n' _ => n' == n
  | _ => false

/-- The load of a call has ended, or was given up. -/
def Ended (n : Nat) (events : List (Event ρ φ)) : Prop :=
  (∃ reply, .loaded n reply ∈ events) ∨ .cancelled n ∈ events

/-- The loader was called for a call and the load has not ended. -/
def Outstanding (n : Nat) (key : String) (events : List (Event ρ φ)) : Prop :=
  .asked n key ∈ events ∧ ¬ Ended n events

/-- What has ended stays so. -/
theorem Ended.append {n : Nat} {events : List (Event ρ φ)} (new : List (Event ρ φ)) :
    Ended n events → Ended n (events ++ new)
  | .inl ⟨reply, h⟩ => .inl ⟨reply, List.mem_append_left _ h⟩
  | .inr h => .inr (List.mem_append_left _ h)

/-! ## What all views of a run keep -/

/-- Calls, marks and loads match. -/
structure Orderly (v : View ρ φ) : Prop where
  standing_lt : ∀ n st, v.standing n = some st → n < v.next
  call_lt : ∀ e ∈ v.events, ∀ n, e.call? = some n → n < v.next
  mark_lt : ∀ key mark, v.cache.get? key = some (.loading mark) → mark < v.cache.nextMark
  loading_lt : ∀ n key mark, v.standing n = some (.loading key mark) → mark < v.cache.nextMark
  loading_inj : ∀ n n' key key' mark, v.standing n = some (.loading key mark) →
    v.standing n' = some (.loading key' mark) → n = n'
  asked_standing : ∀ n key, .asked n key ∈ v.events →
    (∃ mark, v.standing n = some (.loading key mark)) ∨ v.standing n = none ∧ Ended n v.events
  asked_once : ∀ n, Since (·.isAsked n) (fun newer => ∀ key, .asked n key ∉ newer) v.events

theorem Orderly.initial : Orderly ({} : View ρ φ) := by
  constructor <;> simp [Cache.get?, since_nil]

/-- A call that looks has not asked yet. -/
theorem Orderly.not_asked {v : View ρ φ} (h : Orderly v) {n : Nat} {key : String}
    {attempt left : Nat} (stands : v.standing n = some (.looking key attempt left))
    (key' : String) : .asked n key' ∉ v.events := by
  intro he
  rcases h.asked_standing n key' he with ⟨mark, hst⟩ | ⟨hst, -⟩
  · rw [stands] at hst
    cases hst
  · rw [stands] at hst
    cases hst

theorem Orderly.isAsked_eq_false {v : View ρ φ} (h : Orderly v) {n : Nat} {key : String}
    {attempt left : Nat} (stands : v.standing n = some (.looking key attempt left)) :
    ∀ e ∈ v.events, e.isAsked n = false := by
  intro e he
  cases e with
  | asked k key' =>
      have hne : k ≠ n := by
        rintro rfl
        exact h.not_asked stands key' he
      simpa [Event.isAsked] using hne
  | _ => rfl

section Preserve

variable {attempts : Nat} {v v' : View ρ φ}

theorem Orderly.preserve_standing_lt (h : Orderly v) (step : Moment attempts v v') :
    ∀ n st, v'.standing n = some st → n < v'.next := by
  intro n st hst
  cases step with
  | begun key =>
      rcases update_eq_some.mp hst with ⟨rfl, -⟩ | ⟨-, hst⟩
      · exact Nat.lt_succ_self _
      · exact Nat.lt_succ_of_lt (h.standing_lt n st hst)
  | hit stands | loaded stands | cancelled stands =>
      rcases update_eq_some.mp hst with ⟨-, hst⟩ | ⟨-, hst⟩
      · cases hst
      · exact h.standing_lt n st hst
  | paused stands | asked stands =>
      rcases update_eq_some.mp hst with ⟨rfl, -⟩ | ⟨-, hst⟩
      · exact h.standing_lt _ _ stands
      · exact h.standing_lt n st hst
  | stored | dropped | cleared => exact h.standing_lt n st hst
  | numbered => exact Nat.lt_succ_of_lt (h.standing_lt n st hst)

theorem Orderly.preserve_call_lt (h : Orderly v) (step : Moment attempts v v') :
    ∀ e ∈ v'.events, ∀ n, e.call? = some n → n < v'.next := by
  intro e he n hn
  cases step with
  | begun key =>
      rcases List.mem_append.mp he with he | he
      · exact Nat.lt_succ_of_lt (h.call_lt e he n hn)
      · rw [List.mem_singleton.mp he] at hn
        cases hn
        exact Nat.lt_succ_self _
  | hit stands | paused stands | asked stands | cancelled stands =>
      rcases List.mem_append.mp he with he | he
      · exact h.call_lt e he n hn
      · rw [List.mem_singleton.mp he] at hn
        cases hn
        exact h.standing_lt _ _ stands
  | loaded stands =>
      rcases List.mem_append.mp he with he | he
      · exact h.call_lt e he n hn
      · rcases List.mem_cons.mp he with he | he
        · rw [he] at hn
          cases hn
          exact h.standing_lt _ _ stands
        · rw [List.mem_singleton.mp he] at hn
          cases hn
          exact h.standing_lt _ _ stands
  | stored | dropped | cleared =>
      rcases List.mem_append.mp he with he | he
      · exact h.call_lt e he n hn
      · rw [List.mem_singleton.mp he] at hn
        cases hn
  | numbered => exact Nat.lt_succ_of_lt (h.call_lt e he n hn)

theorem Orderly.preserve_mark_lt (h : Orderly v) (step : Moment attempts v v') :
    ∀ key mark, v'.cache.get? key = some (.loading mark) → mark < v'.cache.nextMark := by
  intro key mark hget
  rcases step.loading_entry hget with hget | ⟨n, rfl, -, -, hnext⟩
  · exact Nat.lt_of_lt_of_le (h.mark_lt key mark hget) step.nextMark_le
  · omega

theorem Orderly.preserve_loading_lt (h : Orderly v) (step : Moment attempts v v') :
    ∀ n key mark, v'.standing n = some (.loading key mark) → mark < v'.cache.nextMark := by
  intro n key mark hst
  rcases step.loading_call hst with hst | ⟨-, rfl, hnext, -⟩
  · exact Nat.lt_of_lt_of_le (h.loading_lt n key mark hst) step.nextMark_le
  · omega

theorem Orderly.preserve_loading_inj (h : Orderly v) (step : Moment attempts v v') :
    ∀ n n' key key' mark, v'.standing n = some (.loading key mark) →
      v'.standing n' = some (.loading key' mark) → n = n' := by
  intro n n' key key' mark hst hst'
  rcases step.loading_call hst with hst | ⟨-, rfl, -, hev, -⟩
  · rcases step.loading_call hst' with hst' | ⟨-, rfl, -, -⟩
    · exact h.loading_inj n n' key key' mark hst hst'
    · exact absurd (h.loading_lt n key _ hst) (Nat.lt_irrefl _)
  · rcases step.loading_call hst' with hst' | ⟨-, -, -, hev', -⟩
    · exact absurd (h.loading_lt n' key' _ hst') (Nat.lt_irrefl _)
    · have hsame := List.append_cancel_left (hev.symm.trans hev')
      cases hsame
      rfl

/-- What holds of the load of a call still holds when something happens to another call. -/
theorem asked_standing_of_ne {n k : Nat} {key : String} {standing : Nat → Option Standing}
    {x : Option Standing} {events : List (Event ρ φ)} (new : List (Event ρ φ)) (hne : n ≠ k)
    (h : (∃ mark, standing n = some (.loading key mark)) ∨ standing n = none ∧ Ended n events) :
    (∃ mark, update standing k x n = some (.loading key mark)) ∨
      update standing k x n = none ∧ Ended n (events ++ new) := by
  rw [Function.update_of_ne hne]
  exact h.imp_right (And.imp_right (Ended.append new))

theorem Orderly.preserve_asked_standing (h : Orderly v) (step : Moment attempts v v') :
    ∀ n key, .asked n key ∈ v'.events →
      (∃ mark, v'.standing n = some (.loading key mark)) ∨
        v'.standing n = none ∧ Ended n v'.events := by
  intro n key he
  cases step with
  | begun k =>
      have he : .asked n key ∈ v.events := by simpa using he
      have hlt : n < v.next := h.call_lt _ he n rfl
      exact asked_standing_of_ne _ (Nat.ne_of_lt hlt) (h.asked_standing n key he)
  | @hit k _ _ _ _ stands | @paused k _ _ _ stands =>
      have hold : .asked n key ∈ v.events := by simpa using he
      refine asked_standing_of_ne _ ?_ (h.asked_standing n key hold)
      rintro rfl
      exact h.not_asked stands key hold
  | @asked k key' _ _ stands =>
      by_cases hn : n = k
      · subst hn
        rcases List.mem_append.mp he with hold | hnew
        · exact absurd hold (h.not_asked stands key)
        · cases List.mem_singleton.mp hnew
          exact .inl ⟨_, Function.update_self ..⟩
      · have he : .asked n key ∈ v.events := by simpa [hn] using he
        exact asked_standing_of_ne _ hn (h.asked_standing n key he)
  | @loaded k _ _ stands reply =>
      have he : .asked n key ∈ v.events := by simpa using he
      by_cases hn : n = k
      · subst hn
        exact .inr ⟨Function.update_self .., .inl ⟨reply, by simp⟩⟩
      · exact asked_standing_of_ne _ hn (h.asked_standing n key he)
  | @cancelled k _ stands =>
      have he : .asked n key ∈ v.events := by simpa using he
      by_cases hn : n = k
      · subst hn
        exact .inr ⟨Function.update_self .., .inr (by simp)⟩
      · exact asked_standing_of_ne _ hn (h.asked_standing n key he)
  | stored | dropped | cleared =>
      have he : .asked n key ∈ v.events := by simpa using he
      exact (h.asked_standing n key he).imp_right (And.imp_right (Ended.append _))
  | numbered => exact h.asked_standing n key he

theorem Orderly.preserve_asked_once (h : Orderly v) (step : Moment attempts v v') :
    ∀ n, Since (·.isAsked n) (fun newer => ∀ key, .asked n key ∉ newer) v'.events := by
  intro n
  have keep : ∀ new : List (Event ρ φ), (∀ e ∈ new, e.isAsked n = false) →
      Since (·.isAsked n) (fun newer => ∀ key, .asked n key ∉ newer) (v.events ++ new) := by
    intro new hnew
    refine Since.append ((h.asked_once n).imp fun newer hnot key hmem => ?_) hnew
    rcases List.mem_append.mp hmem with hmem | hmem
    · exact hnot key hmem
    · simpa [Event.isAsked] using hnew _ hmem
  cases step with
  | begun | hit | paused | loaded | cancelled | stored | dropped | cleared =>
      exact keep _ (by simp [Event.isAsked])
  | @asked k key _ _ stands =>
      by_cases hn : k = n
      · subst hn
        exact since_append.mpr
          ⟨since_of_forall (h.isAsked_eq_false stands), by simp [since_cons, since_nil]⟩
      · exact keep _ (by simpa [Event.isAsked] using hn)
  | numbered => exact h.asked_once n

theorem Orderly.step (h : Orderly v) (step : Moment attempts v v') : Orderly v' where
  standing_lt := h.preserve_standing_lt step
  call_lt := h.preserve_call_lt step
  mark_lt := h.preserve_mark_lt step
  loading_lt := h.preserve_loading_lt step
  loading_inj := h.preserve_loading_inj step
  asked_standing := h.preserve_asked_standing step
  asked_once := h.preserve_asked_once step

theorem Orderly.of_moments (steps : Moments attempts {} v) : Orderly v := by
  induction steps with
  | refl => exact .initial
  | tail _ step ih => exact ih.step step

end Preserve

/-- A load is outstanding exactly while its call waits for it. -/
theorem Orderly.standing_of_outstanding {v : View ρ φ} (h : Orderly v) {n : Nat} {key : String}
    (ho : Outstanding n key v.events) : ∃ mark, v.standing n = some (.loading key mark) :=
  (h.asked_standing n key ho.1).resolve_right fun hend => ho.2 hend.2

end Toolbar.Chronicle
