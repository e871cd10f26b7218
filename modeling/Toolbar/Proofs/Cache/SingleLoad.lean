/-
# `Toolbar.Proofs.Cache.SingleLoad` — one load of a record at a time

Calls that fetch one record share one load: whoever finds the mark of a load on the key pauses, and
asks for a load of its own only after all its pauses.  The mark is no lock, though.  It can be taken
away or put out of force while its load is on its way, and then another load of the key begins.

    what displaces the mark of a key      what is seen of it
    a removal                             `dropped` with the key, `cleared`
    a record that is put                  `stored`
    another mark                          `asked`, by a call that has spent all its pauses

`load_interrupted` says that nothing else does: between the beginnings of two loads of a key, of
which the first is on its way at the second, one of the three was seen.
-/
import Toolbar.Proofs.Cache.Freshness

namespace Toolbar.Chronicle

variable {ρ φ σ : Type}

/-! ## Marks and interrupts in events -/

/-- Whether a record is put under a key. -/
def Event.stores (key : String) : Event ρ φ → Bool
  | .stored key' _ => key' == key
  | _ => false

/-- Whether the loader is called with a key. -/
def Event.asks (key : String) : Event ρ φ → Bool
  | .asked _ key' => key' == key
  | _ => false

/-- Whether a call pauses. -/
def Event.isPaused (n : Nat) : Event ρ φ → Bool
  | .paused n' => n' == n
  | _ => false

/-- Whether the mark of a key is displaced, if it has one. -/
def Event.displaces (key : String) (e : Event ρ φ) : Bool :=
  e.removes key || e.stores key || e.asks key

/-- The load that was asked for last with a key is on its way and still has its mark. -/
def Marked (key : String) (events : List (Event ρ φ)) : Prop :=
  ∃ n older newer, events = older ++ .asked n key :: newer ∧
    (∀ e ∈ newer, e.displaces key = false) ∧ ¬ Ended n events

/-- A call that has spent all its pauses asks for a load though the key has a mark. -/
def TakesOver (attempts : Nat) (key : String) (past : List (Event ρ φ)) (e : Event ρ φ) : Prop :=
  ∃ n, e = .asked n key ∧ past.countP (·.isPaused n) = attempts ∧ Marked key past

/-- What ends the time of one load of a key: a removal, a put or a takeover. -/
def Interrupts (attempts : Nat) (key : String) (past : List (Event ρ φ)) (e : Event ρ φ) : Prop :=
  e.removes key = true ∨ e.stores key = true ∨ TakesOver attempts key past e

theorem Event.asks_iff {key : String} {e : Event ρ φ} :
    e.asks key = true ↔ ∃ n, e = .asked n key := by
  cases e <;> simp [asks]

/-! ## What all views of a run keep -/

/-- Pauses are counted, and a mark stays until it is displaced or its load ends. -/
structure Single (attempts : Nat) (v : View ρ φ) : Prop where
  pauses : ∀ n key attempt left, v.standing n = some (.looking key attempt left) →
    v.events.countP (·.isPaused n) = attempt ∧ attempt + left = attempts
  held : ∀ n key mark, v.standing n = some (.loading key mark) →
    Since (·.isAsked n) (fun newer => (∀ e ∈ newer, e.displaces key = false) →
      v.cache.get? key = some (.loading mark)) v.events
  takeover : Upon (fun past e => ∀ n key, e = .asked n key → Marked key past →
    past.countP (·.isPaused n) = attempts) v.events

theorem Single.initial (attempts : Nat) : Single attempts ({} : View ρ φ) := by
  constructor <;> simp [upon_nil]

section Preserve

variable {attempts : Nat} {v v' : View ρ φ}

/-- Numbers that were not given out do not occur. -/
theorem Orderly.not_paused (h : Orderly v) : v.events.countP (·.isPaused v.next) = 0 := by
  refine List.countP_eq_zero.mpr fun e he hp => ?_
  cases e with
  | paused n =>
      have hn : n = v.next := by simpa [Event.isPaused] using hp
      exact Nat.ne_of_lt (h.call_lt _ he n rfl) hn
  | _ => cases hp

theorem Single.preserve_pauses (h : Single attempts v) (orderly : Orderly v)
    (step : Moment attempts v v') :
    ∀ n key attempt left, v'.standing n = some (.looking key attempt left) →
      v'.events.countP (·.isPaused n) = attempt ∧ attempt + left = attempts := by
  intro n key attempt left hst
  have keep : ∀ new : List (Event ρ φ), (∀ e ∈ new, e.isPaused n = false) →
      v.standing n = some (.looking key attempt left) →
      (v.events ++ new).countP (·.isPaused n) = attempt ∧ attempt + left = attempts := by
    intro new hnew hold
    have hzero : new.countP (·.isPaused n) = 0 :=
      List.countP_eq_zero.mpr fun e he => by simp [hnew e he]
    rw [List.countP_append, hzero]
    exact h.pauses n key attempt left hold
  cases step with
  | begun =>
      rcases update_eq_some.mp hst with ⟨rfl, hnew⟩ | ⟨-, hold⟩
      · cases hnew
        rw [List.countP_append, orderly.not_paused]
        exact ⟨rfl, Nat.zero_add _⟩
      · exact keep _ (by simp [Event.isPaused]) hold
  | hit | asked | loaded | cancelled =>
      rcases update_eq_some.mp hst with ⟨-, hst⟩ | ⟨-, hold⟩
      · cases hst
      · exact keep _ (by simp [Event.isPaused]) hold
  | @paused k _ _ _ stands =>
      rcases update_eq_some.mp hst with ⟨rfl, hnew⟩ | ⟨hne, hold⟩
      · cases hnew
        obtain ⟨hcount, hsum⟩ := h.pauses _ _ _ _ stands
        rw [List.countP_append, hcount]
        refine ⟨?_, by omega⟩
        simp [Event.isPaused]
      · exact keep _ (by simpa [Event.isPaused] using Ne.symm hne) hold
  | stored | dropped | cleared => exact keep _ (by simp [Event.isPaused]) hst
  | numbered => exact h.pauses n key attempt left hst

/-- While a call waits for its load, the mark of its key stays unless it is displaced. -/
theorem Moment.keeps_mark (step : Moment attempts v v') (orderly : Orderly v) {n : Nat}
    {key : String} {mark : Nat} (before : v.standing n = some (.loading key mark))
    (still : v'.standing n = some (.loading key mark))
    (hget : v.cache.get? key = some (.loading mark))
    (kept : ∀ new, v'.events = v.events ++ new → ∀ e ∈ new, e.displaces key = false) :
    v'.cache.get? key = some (.loading mark) := by
  -- A load that ends under the mark would be the one of `n`, which does not wait afterwards.
  have other : ∀ k key', v.standing k = some (.loading key' mark) → v'.standing k ≠ none := by
    intro k key' hst hnone
    rw [orderly.loading_inj k n key' key mark hst before, still] at hnone
    cases hnone
  cases step with
  | begun | hit | paused | numbered => exact hget
  | @asked k key' =>
      have hkey : key' ≠ key := by
        have := kept _ rfl _ List.mem_cons_self
        simpa [Event.displaces, Event.removes, Event.stores, Event.asks] using this
      rw [Cache.get?_claim, if_neg hkey.symm]
      exact hget
  | @loaded k key' mark' stands reply =>
      rw [Cache.get?_conclude, if_neg]
      · exact hget
      · rintro ⟨rfl, hholds⟩
        rw [Cache.holds_iff, hget] at hholds
        cases hholds
        exact other k key stands (Function.update_self ..)
  | @cancelled k st stands =>
      cases st with
      | looking => exact hget
      | loading key' mark' =>
          rw [Standing.giveUp, Cache.get?_abandon, if_neg]
          · exact hget
          · rintro ⟨rfl, hholds⟩
            rw [Cache.holds_iff, hget] at hholds
            cases hholds
            exact other k key stands (Function.update_self ..)
  | stored key' =>
      have hkey : key' ≠ key := by
        have := kept _ rfl _ List.mem_cons_self
        simpa [Event.displaces, Event.removes, Event.stores, Event.asks] using this
      rw [Cache.get?_put, if_neg hkey.symm]
      exact hget
  | dropped keys =>
      have hkey : key ∉ keys := by
        have := kept _ rfl _ List.mem_cons_self
        simpa [Event.displaces, Event.removes, Event.stores, Event.asks] using this
      rw [Cache.get?_invalidate, if_neg hkey]
      exact hget
  | cleared =>
      have := kept _ rfl _ List.mem_cons_self
      cases this

theorem Single.preserve_held (h : Single attempts v) (orderly : Orderly v)
    (step : Moment attempts v v') :
    ∀ n key mark, v'.standing n = some (.loading key mark) →
      Since (·.isAsked n) (fun newer => (∀ e ∈ newer, e.displaces key = false) →
        v'.cache.get? key = some (.loading mark)) v'.events := by
  intro n key mark hst
  rcases step.loading_call hst with before | ⟨hlooking, -, -, hasked, hget⟩
  · have keep : ∀ new, v'.events = v.events ++ new → (∀ e ∈ new, e.isAsked n = false) →
        Since (·.isAsked n) (fun newer => (∀ e ∈ newer, e.displaces key = false) →
          v'.cache.get? key = some (.loading mark)) v'.events := by
      intro new hev hnew
      rw [hev]
      refine Since.append ((h.held n key mark before).imp fun newer hget hkept => ?_) hnew
      have hget := hget fun e he => hkept e (List.mem_append_left _ he)
      refine step.keeps_mark orderly before hst hget fun new' hev' e he => ?_
      rw [List.append_cancel_left (hev'.symm.trans hev)] at he
      exact hkept e (List.mem_append_right _ he)
    cases step with
    | begun | hit | paused | loaded | cancelled | stored | dropped | cleared =>
        exact keep _ rfl (by simp [Event.isAsked])
    | @asked k _ _ _ stands =>
        have hne : k ≠ n := by
          rintro rfl
          rw [before] at stands
          cases stands
        exact keep _ rfl (by simpa [Event.isAsked] using hne)
    | numbered => exact keep [] (List.append_nil _).symm (by simp)
  · obtain ⟨attempt, left, hlooking⟩ := hlooking
    have first : ∀ e ∈ v.events, e.isAsked n = false := orderly.isAsked_eq_false hlooking
    rw [hasked]
    exact since_append.mpr ⟨since_of_forall first, fun _ _ _ _ _ _ => hget⟩

/-- A key with a mark is loading. -/
theorem Single.isLoading (h : Single attempts v) (orderly : Orderly v) {key : String}
    (marked : Marked key v.events) : v.cache.isLoading key = true := by
  obtain ⟨n, older, newer, split, kept, open_still⟩ := marked
  have asked : .asked n key ∈ v.events := by
    rw [split]
    exact List.mem_append_right _ List.mem_cons_self
  obtain ⟨mark, stands⟩ := orderly.standing_of_outstanding ⟨asked, open_still⟩
  refine Cache.isLoading_iff.mpr ⟨mark, ?_⟩
  exact h.held n key mark stands older (.asked n key) newer split (beq_self_eq_true n) kept

theorem Single.preserve_takeover (h : Single attempts v) (orderly : Orderly v)
    (step : Moment attempts v v') :
    Upon (fun past e => ∀ n key, e = .asked n key → Marked key past →
      past.countP (·.isPaused n) = attempts) v'.events := by
  cases step with
  | @asked n key _ left stands _ exhausted =>
      refine upon_concat.mpr ⟨h.takeover, fun n' key' he marked => ?_⟩
      cases he
      have hleft : left = 0 := exhausted (h.isLoading orderly marked)
      obtain ⟨hcount, hsum⟩ := h.pauses n key _ left stands
      omega
  | loaded => exact upon_append_pair.mpr ⟨⟨h.takeover, by simp⟩, by simp⟩
  | begun | hit | paused | cancelled | stored | dropped | cleared =>
      exact upon_concat.mpr ⟨h.takeover, by simp⟩
  | numbered => exact h.takeover

theorem Single.step (h : Single attempts v) (orderly : Orderly v)
    (step : Moment attempts v v') : Single attempts v' where
  pauses := h.preserve_pauses orderly step
  held := h.preserve_held orderly step
  takeover := h.preserve_takeover orderly step

theorem Single.of_moments (steps : Moments attempts {} v) : Single attempts v := by
  induction steps with
  | refl => exact .initial attempts
  | tail before step ih => exact ih.step (.of_moments before) step

end Preserve

/-! ## Two loads of a key -/

theorem Outstanding.of_append {n : Nat} {key : String} {older mid newer : List (Event ρ φ)}
    (h : Outstanding n key (older ++ .asked n key :: mid ++ newer)) :
    Outstanding n key (older ++ .asked n key :: mid) :=
  ⟨List.mem_append_right _ List.mem_cons_self, fun hend => h.2 (hend.append newer)⟩

/-- Between the beginnings of two loads of a key, the first on its way at the second, its mark is
displaced. -/
theorem Single.interrupted {attempts : Nat} {v : View ρ φ} (h : Single attempts v) {n n' : Nat}
    {key : String} {older mid newer : List (Event ρ φ)}
    (split : v.events = older ++ .asked n key :: mid ++ .asked n' key :: newer)
    (outstanding : Outstanding n key (older ++ .asked n key :: mid)) :
    ∃ before e after, mid ++ [.asked n' key] = before ++ e :: after ∧
      Interrupts attempts key (older ++ .asked n key :: before) e := by
  -- The event that is looked for is the first one that displaces the mark.
  have last : (Event.asked n' key : Event ρ φ).displaces key = true := by
    simp [Event.displaces, Event.asks]
  have isSome : ((mid ++ [Event.asked n' key]).find? (Event.displaces key)).isSome = true :=
    List.find?_isSome.mpr ⟨_, List.mem_append_right _ List.mem_cons_self, last⟩
  obtain ⟨e, found⟩ := Option.isSome_iff_exists.mp isSome
  obtain ⟨displaces, before, after, hsplit, kept⟩ := List.find?_eq_some_iff_append.mp found
  refine ⟨before, e, after, hsplit, ?_⟩
  rcases hasks : e.asks key with _ | _
  · have hor : (e.removes key || e.stores key) = true := by
      simpa [Event.displaces, hasks] using displaces
    exact (Bool.or_eq_true_iff.mp hor).imp_right .inl
  · obtain ⟨t, rfl⟩ := Event.asks_iff.mp hasks
    have hmid : ∃ rest, mid = before ++ rest := by
      rcases List.eq_nil_or_concat after with rfl | ⟨rest, x, rfl⟩
      · exact ⟨[], by simpa using (List.append_inj' hsplit rfl).1⟩
      · have hlast : mid ++ [.asked n' key] = (before ++ .asked t key :: rest) ++ [x] := by
          simpa using hsplit
        exact ⟨.asked t key :: rest, (List.append_inj' hlast rfl).1⟩
    obtain ⟨rest, rfl⟩ := hmid
    have marked : Marked key (older ++ .asked n key :: before) := by
      refine ⟨n, older, before, rfl, fun e he => by simpa using kept e he, fun hend => ?_⟩
      exact outstanding.2 (by simpa using hend.append rest)
    have hevents : v.events =
        (older ++ .asked n key :: before) ++ .asked t key :: (after ++ newer) := by
      have htail : before ++ rest ++ .asked n' key :: newer =
          before ++ .asked t key :: (after ++ newer) := by
        simpa using congrArg (· ++ newer) hsplit
      rw [split, List.append_assoc, List.cons_append, htail]
      simp
    exact .inr (.inr ⟨t, rfl, h.takeover _ _ _ hevents t key rfl marked, marked⟩)

/-- Of two loads that are outstanding, one began first. -/
theorem Outstanding.split {n n' : Nat} {key : String} {past : List (Event ρ φ)} (hne : n ≠ n')
    (h : Outstanding n key past) (h' : Outstanding n' key past) :
    ∃ k k' older mid newer, past = older ++ .asked k key :: mid ++ .asked k' key :: newer ∧
      Outstanding k key (older ++ .asked k key :: mid) := by
  obtain ⟨left, right, rfl⟩ := List.append_of_mem h.1
  rcases List.mem_append.mp h'.1 with hleft | hright
  · obtain ⟨older, mid, rfl⟩ := List.append_of_mem hleft
    exact ⟨n', n, older, mid, right, rfl, .of_append h'⟩
  · have hright : .asked n' key ∈ right := by
      rcases List.mem_cons.mp hright with heq | hright
      · cases heq
        exact absurd rfl hne
      · exact hright
    obtain ⟨mid, newer, rfl⟩ := List.append_of_mem hright
    have hsplit : left ++ Event.asked n key :: (mid ++ .asked n' key :: newer) =
        left ++ .asked n key :: mid ++ .asked n' key :: newer := by simp
    rw [hsplit] at h
    exact ⟨n, n', left, mid, newer, hsplit, h.of_append⟩

/-- **Loads of a key follow each other unless they are interrupted.**  If a load of a key begins
while another is on its way, something interrupted the other since its beginning: a removal of the
key, a put, or a call that took its mark over with no pause left, which may be the call of the new
load.  So where nothing interrupts, one load of a key is on its way at most. -/
theorem load_interrupted (sup : Supplier ρ φ σ) (oracle : σ) (acts : List (Act ρ φ))
    (key : String) :
    (∀ older n mid n' newer,
      (run sup oracle acts).events =
        older ++ .asked n key :: mid ++ .asked n' key :: newer →
      Outstanding n key (older ++ .asked n key :: mid) →
      ∃ before e after, mid ++ [.asked n' key] = before ++ e :: after ∧
        Interrupts sup.attempts key (older ++ .asked n key :: before) e) ∧
    (Upon (fun past e => ¬ Interrupts sup.attempts key past e) (run sup oracle acts).events →
      ∀ past newer, (run sup oracle acts).events = past ++ newer →
        ∀ n n', Outstanding n key past → Outstanding n' key past → n = n') := by
  have steps := run_moments sup oracle acts
  have single : Single sup.attempts (Run.view acts.length (run sup oracle acts)) :=
    .of_moments steps
  refine ⟨fun older n mid n' newer split outstanding => single.interrupted split outstanding, ?_⟩
  intro calm past newer split n n' h h'
  refine Classical.byContradiction fun hne => ?_
  obtain ⟨k, k', older, mid, rest, rfl, outstanding⟩ := Outstanding.split hne h h'
  have hevents : (run sup oracle acts).events =
      older ++ .asked k key :: mid ++ .asked k' key :: (rest ++ newer) := by
    rw [split]
    simp
  obtain ⟨before, e, after, hmid, interrupts⟩ := single.interrupted hevents outstanding
  refine calm _ e (after ++ rest ++ newer) ?_ interrupts
  have htail : mid ++ .asked k' key :: (rest ++ newer) =
      before ++ e :: (after ++ rest ++ newer) := by
    simpa using congrArg (· ++ (rest ++ newer)) hmid
  rw [hevents, List.append_assoc, List.cons_append, htail]
  simp

/-- Two fetches of a key, of which the second pauses behind the load of the first. -/
def crowd : List (Act Nat String) :=
  [.call (.fetch none "task" "1"), .call (.fetch none "task" "1")]

/-- Where a fetch pauses once, the second takes over after its pause; before that, one load is on
its way. -/
theorem crowd_interrupted :
    (∃ before e after, [.begun 1 "task:1", .paused 1] ++ [.asked 1 "task:1"] =
      before ++ e :: after ∧ Interrupts 1 "task:1"
        ([.begun 0 "task:1"] ++ .asked 0 "task:1" :: before : List (Event Nat String)) e) ∧
    Outstanding 0 "task:1" (run (patient 1) () crowd).events ∧
    ∀ n, Outstanding n "task:1" (run (patient 1) () crowd).events → n = 0 := by
  have split : (run (patient 1) () (crowd ++ [.wake 1 (.ok none)])).events =
      [.begun 0 "task:1"] ++ .asked 0 "task:1" :: [.begun 1 "task:1", .paused 1] ++
        .asked 1 "task:1" :: [] := by decide +kernel
  have outstanding : Outstanding 0 "task:1" ([.begun 0 "task:1"] ++ .asked 0 "task:1" ::
      [.begun 1 "task:1", .paused 1] : List (Event Nat String)) := by
    simp [Outstanding, Ended]
  have short : (run (patient 1) () crowd).events =
      [] ++ [.begun 0 "task:1"] ++ [.asked 0 "task:1"] ++ [.begun 1 "task:1"] ++ [.paused 1] := by
    decide +kernel
  have calm : Upon (fun past e => ¬ Interrupts 1 "task:1" past e)
      (run (patient 1) () crowd).events := by
    rw [short]
    simp only [upon_concat, upon_nil, true_and]
    simp [Interrupts, TakesOver, Event.removes, Event.stores, Event.isPaused]
  obtain ⟨interrupted, -⟩ := load_interrupted (patient 1) () (crowd ++ [.wake 1 (.ok none)]) "task:1"
  obtain ⟨-, single⟩ := load_interrupted (patient 1) () crowd "task:1"
  have first : Outstanding 0 "task:1" (run (patient 1) () crowd).events := by
    rw [short]
    exact outstanding
  refine ⟨interrupted _ _ _ _ _ split outstanding, first, fun n h => ?_⟩
  exact single calm _ [] (List.append_nil _).symm n 0 h first

end Toolbar.Chronicle
