/-
# `Toolbar.Proofs.Cache.Leaving` — what scopes leave behind

A scope remembers the keys that were fetched through it, and takes their entries away when it is
left.  So an entry whose key no scope remembers stays for good.  A key is remembered from the
beginning of its fetch on, but its entry may be set much later: a fetch that pauses behind the load of
another asks for a load of its own when it is woken, and by then its scope may have been left.

    a load is asked for                                    its key is remembered by
    when the fetch begins                                  the scope of the fetch
    behind a pause, in which no scope with it was left     the same scope
    behind a pause, in which they were left                none, unless one of them fetched it again

The last case is `AskedLate`.  Every entry of a cache that is used through scopes alone has a scope
that remembers its key, or comes from a load that was asked for late (`Run.entry_step`).
-/
import Mathlib.Data.List.Induction
import Toolbar.Proofs.Cache.Standing
import Toolbar.Proofs.Cache.Turn

namespace Toolbar

/-- A cache without an entry for any key has no entries. -/
theorem Cache.entries_eq_nil {ρ : Type} {c : Cache ρ} (h : ∀ key, c.get? key = none) :
    c.entries = [] := by
  rcases hentries : c.entries with _ | ⟨⟨key, entry⟩, rest⟩
  · rfl
  · have hget := h key
    rw [get?, hentries, List.lookup_cons_self] at hget
    cases hget

namespace Chronicle

variable {ρ φ σ : Type}

/-! ## Use through scopes -/

/-- Whether an act uses the cache through scopes alone. -/
def Act.isScoped : Act ρ φ → Bool
  | .call (.fetch scope _ _) => scope.isSome
  | .call (.move (.leave _)) => true
  | .call (.move _) => false
  | .wake _ _ | .cancel _ => true

/-- Whether an act leaves a scope. -/
def Act.leaves (scope : Nat) : Act ρ φ → Bool
  | .call (.move (.leave s)) => s == scope
  | _ => false

/-- Each scope is left after the last of its fetches has begun. -/
def AllLeft : List (Act ρ φ) → Bool
  | [] => true
  | .call (.fetch (some scope) _ _) :: acts => acts.any (·.leaves scope) && AllLeft acts
  | _ :: acts => AllLeft acts

/-- The scopes after an act. -/
def Act.scopes (s : Scopes) : Act ρ φ → Scopes
  | .call (.fetch (some scope) entity id) => s.touch scope (Record.key entity id)
  | .call (.move (.leave scope)) => s.set scope []
  | _ => s

/-- A scope remembers the keys that were fetched through it since it was left. -/
theorem Act.mem_keys_scopes (s : Scopes) (act : Act ρ φ) (scope : Nat) (key : String) :
    key ∈ (act.scopes s).keys scope ↔
      (∃ entity id, act = .call (.fetch (some scope) entity id) ∧ key = Record.key entity id) ∨
        key ∈ s.keys scope ∧ act.leaves scope = false := by
  cases act with
  | wake | cancel => simp [Act.scopes, Act.leaves]
  | call c =>
      cases c with
      | fetch scope' entity id =>
          cases scope' with
          | none => simp [Act.scopes, Act.leaves]
          | some scope' =>
              by_cases hs : scope = scope'
              · subst hs
                simp [Act.scopes, Act.leaves, Scopes.mem_keys_touch]
              · simp [Act.scopes, Act.leaves, Scopes.keys_touch_of_ne hs, Ne.symm hs]
      | move mv =>
          cases mv with
          | put | invalidate | clear => simp [Act.scopes, Act.leaves]
          | leave scope' =>
              by_cases hs : scope = scope'
              · simp [Act.scopes, Act.leaves, Scopes.keys_set, hs]
              · simp [Act.scopes, Act.leaves, Scopes.keys_set, hs, Ne.symm hs]

/-- What scopes remember after they are left is what they remembered before the first act, and none
of the acts left them. -/
theorem AllLeft.mem_keys : ∀ {acts : List (Act ρ φ)} {s : Scopes} {scope : Nat} {key : String},
    AllLeft acts = true → key ∈ (acts.foldl Act.scopes s).keys scope →
      key ∈ s.keys scope ∧ acts.any (·.leaves scope) = false
  | [], _, _, _, _, h => ⟨h, rfl⟩
  | act :: acts, s, scope, key, all, h => by
      have rest : AllLeft acts = true := by
        unfold AllLeft at all
        split at all
        next heq => cases heq
        next heq =>
          cases heq
          exact (Bool.and_eq_true_iff.mp all).2
        next heq =>
          cases heq
          exact all
      obtain ⟨hkey, hleft⟩ := AllLeft.mem_keys rest h
      rcases (act.mem_keys_scopes s scope key).mp hkey with ⟨entity, id, rfl, -⟩ | ⟨hkey, hact⟩
      · -- A scope that was fetched through is left by one of the acts that follow.
        have later : acts.any (·.leaves scope) = true := (Bool.and_eq_true_iff.mp all).1
        rw [hleft] at later
        cases later
      · rw [List.any_cons, hact, hleft]
        exact ⟨hkey, rfl⟩

/-- A scope remembers a key. -/
def Remembered (m : Run ρ φ σ) (key : String) : Prop :=
  ∃ scope, key ∈ m.shared.scopes.keys scope

/-- A fetch that is woken from a pause asks for its load when no scope remembers the key. -/
def AskedLate (sup : Supplier ρ φ σ) (oracle : σ) (acts : List (Act ρ φ)) (key : String) : Prop :=
  ∃ before n reply after, acts = before ++ .wake n reply :: after ∧
    .asked n key ∉ (run sup oracle before).events ∧
    .asked n key ∈ (run sup oracle (before ++ [.wake n reply])).events ∧
    ¬ Remembered (run sup oracle before) key

/-! ## A turn of a fetch -/

section Turning

variable {sup : Supplier ρ φ σ} {f : Fetch} {left : Nat} {s : Shared ρ (Chronicle ρ φ σ)}
  {r : Shared ρ (Chronicle ρ φ σ) × Fetch.Turn ρ φ}

theorem asked_mem_ask (sup : Supplier ρ φ σ) (call wait : Nat) (request : Request)
    (o : Chronicle ρ φ σ) :
    .asked call (Store.keyOf request) ∈ ((supplier sup).ask call wait request o).1.events := by
  rcases hask : sup.ask call wait request o.oracle with ⟨oracle, _ | reply⟩
  · simp [supplier_ask hask]
  · simp [supplier_ask hask]

theorem scopes_of_comes (h : Fetch.Comes (supplier sup) f left s r) : r.1.scopes = s.scopes := by
  induction h with
  | passed _ _ ih => exact ih
  | hit | paused | replied | asked => rfl

/-- A fetch sets the entry of its own key alone, and only by asking for its load. -/
theorem entry_of_comes (h : Fetch.Comes (supplier sup) f left s r) {key : String}
    {entry : Cache.Entry ρ} (hget : r.1.cache.get? key = some entry) :
    s.cache.get? key = some entry ∨ key = f.key ∧ .asked f.task f.key ∈ r.1.outer.events := by
  induction h with
  | hit | paused => exact .inl hget
  | passed _ _ ih => exact ih hget
  | @replied left wait s outer reply hask =>
      have hasked := asked_mem_ask sup f.task wait f.request s.outer
      rw [hask] at hasked
      by_cases hkey : key = f.key
      · exact .inr ⟨hkey, hasked⟩
      · simp only [finish_cache, Cache.get?_conclude, Cache.get?_claim, hkey, false_and,
          if_false] at hget
        exact .inl hget
  | @asked left wait s outer hask =>
      have hasked := asked_mem_ask sup f.task wait f.request s.outer
      rw [hask] at hasked
      by_cases hkey : key = f.key
      · exact .inr ⟨hkey, hasked⟩
      · simp only [Cache.get?_claim, hkey, if_false] at hget
        exact .inl hget

end Turning

/-! ## One act -/

namespace Run

variable {sup : Supplier ρ φ σ} {n : Nat} {m : Run ρ φ σ} {f : Fetch} {key : String}
  {t : Shared ρ (Chronicle ρ φ σ) × Fetch.Turn ρ φ}

@[simp] theorem cache_turned (m : Run ρ φ σ) (f : Fetch)
    (t : Shared ρ (Chronicle ρ φ σ) × Fetch.Turn ρ φ) : (turned m f t).cache = t.1.cache := by
  obtain ⟨s, r | phase⟩ := t <;> rfl

@[simp] theorem scopes_turned (m : Run ρ φ σ) (f : Fetch)
    (t : Shared ρ (Chronicle ρ φ σ) × Fetch.Turn ρ φ) :
    (turned m f t).shared.scopes = t.1.scopes := by
  obtain ⟨s, r | phase⟩ := t <;> rfl

theorem mem_events_turned {e : Event ρ φ} (h : e ∈ t.1.outer.events) :
    e ∈ (turned m f t).events := by
  obtain ⟨s, r | phase⟩ := t
  · exact List.mem_append_left _ h
  · exact h

theorem scopes_step (formed : Formed n m) (act : Act ρ φ) :
    (step sup n m act).shared.scopes = act.scopes m.shared.scopes := by
  cases act with
  | call c =>
      cases c with
      | fetch scope entity id =>
          rw [call_fetch_eq, scopes_turned, Fetch.start,
            scopes_of_comes (Fetch.proceed_comes _ _ _ _ _)]
          cases scope <;> rfl
      | move mv =>
          rw [call_move_eq]
          cases mv <;> rfl
  | wake call reply =>
      cases hf : m.parked.find? (·.task == call) with
      | none =>
          simp only [step, hf]
          rfl
      | some p =>
          obtain ⟨hp, f, phase, what, task, rfl⟩ := formed.find? hf
          rw [wake_eq sup formed hp what task hf, scopes_turned]
          cases phase with
          | loading mark => rfl
          | pausing attempt left => exact scopes_of_comes (Fetch.proceed_comes _ _ _ _ _)
  | cancel call =>
      cases hf : m.parked.find? (·.task == call) with
      | none =>
          simp only [step, Machine.cancel, hf]
          rfl
      | some p =>
          obtain ⟨-, f, phase, what, -, rfl⟩ := formed.find? hf
          rw [cancel_eq sup what hf]
          cases phase <;> rfl

/-- Where an entry comes from that a scoped act leaves: its key is remembered, or it was there before
and no scope has forgotten it, or a fetch that was woken has just asked for its load. -/
inductive Origin (sup : Supplier ρ φ σ) (n : Nat) (m : Run ρ φ σ) (act : Act ρ φ) (key : String) :
    Prop
  | remembered : Remembered (step sup n m act) key → Origin sup n m act key
  | kept : (∃ entry, m.cache.get? key = some entry) →
      (Remembered m key → Remembered (step sup n m act) key) → Origin sup n m act key
  | woken (call : Nat) (reply : Except φ (Option ρ)) : act = .wake call reply →
      .asked call key ∉ m.events → .asked call key ∈ (step sup n m act).events →
      Origin sup n m act key

/-- An entry that was there before is kept by an act that leaves the scopes alone. -/
theorem Origin.of_scopes (formed : Formed n m) {act : Act ρ φ} {entry : Cache.Entry ρ}
    (same : act.scopes m.shared.scopes = m.shared.scopes)
    (before : m.cache.get? key = some entry) : Origin sup n m act key := by
  refine .kept ⟨entry, before⟩ fun ⟨scope, hkey⟩ => ⟨scope, ?_⟩
  rw [scopes_step formed, same]
  exact hkey

theorem entry_fetch (formed : Formed n m) (scope : Nat) (entity id : String)
    {entry : Cache.Entry ρ}
    (h : (step sup n m (.call (.fetch (some scope) entity id))).cache.get? key = some entry) :
    Origin sup n m (.call (.fetch (some scope) entity id)) key := by
  rw [call_fetch_eq, cache_turned] at h
  rcases entry_of_comes (Fetch.proceed_comes _ _ _ _ _) h with before | ⟨rfl, -⟩
  · refine .kept ⟨entry, before⟩ fun ⟨scope', hkey⟩ => ⟨scope', ?_⟩
    rw [scopes_step formed]
    exact (Act.mem_keys_scopes _ _ _ _).mpr (.inr ⟨hkey, rfl⟩)
  · refine .remembered ⟨scope, ?_⟩
    rw [scopes_step formed]
    exact (Act.mem_keys_scopes _ _ _ _).mpr (.inl ⟨entity, id, rfl, rfl⟩)

theorem entry_leave (formed : Formed n m) (scope : Nat) {entry : Cache.Entry ρ}
    (h : (step sup n m (.call (.move (.leave scope)))).cache.get? key = some entry) :
    Origin sup n m (.call (.move (.leave scope))) key := by
  have h : (m.cache.invalidate (m.shared.scopes.keys scope)).1.get? key = some entry := h
  rw [Cache.get?_invalidate] at h
  split at h
  · cases h
  next absent =>
    refine .kept ⟨entry, h⟩ fun ⟨scope', hkey⟩ => ⟨scope', ?_⟩
    rw [scopes_step formed]
    refine (Act.mem_keys_scopes _ _ _ _).mpr (.inr ⟨hkey, beq_eq_false_iff_ne.mpr ?_⟩)
    rintro rfl
    exact absent hkey

theorem entry_wake (formed : Formed n m) (orderly : Orderly (view n m)) (call : Nat)
    (reply : Except φ (Option ρ)) {entry : Cache.Entry ρ}
    (h : (step sup n m (.wake call reply)).cache.get? key = some entry) :
    Origin sup n m (.wake call reply) key := by
  cases hf : m.parked.find? (·.task == call) with
  | none =>
      simp only [step, hf] at h
      exact .of_scopes formed rfl h
  | some p =>
      obtain ⟨hp, f, phase, what, task, rfl⟩ := formed.find? hf
      have woken := wake_eq sup formed hp what task hf reply
      rw [woken, cache_turned] at h
      cases phase with
      | loading mark =>
          simp only [wakeTurn, finish_cache, Cache.get?_conclude] at h
          split at h
          next hkey =>
            refine .of_scopes formed rfl (?_ : _ = some (.loading mark))
            rw [hkey.1]
            exact Cache.holds_iff.mp hkey.2
          next => exact .of_scopes formed rfl h
      | pausing attempt left =>
          rcases entry_of_comes (Fetch.proceed_comes _ _ _ _ _) h with before | ⟨rfl, asked⟩
          · exact .of_scopes formed rfl before
          · refine .woken f.task reply rfl (orderly.not_asked (standingOf_find what hf) f.key) ?_
            rw [woken]
            exact mem_events_turned asked

theorem entry_cancel (formed : Formed n m) (call : Nat) {entry : Cache.Entry ρ}
    (h : (step sup n m (.cancel call)).cache.get? key = some entry) :
    Origin sup n m (.cancel call) key := by
  refine .of_scopes formed rfl (?_ : m.cache.get? key = some entry)
  cases hf : m.parked.find? (·.task == call) with
  | none =>
      simp only [step, Machine.cancel, hf] at h
      exact h
  | some p =>
      obtain ⟨-, f, phase, what, -, rfl⟩ := formed.find? hf
      rw [cancel_eq sup what hf] at h
      cases phase with
      | pausing => exact h
      | loading mark =>
          have h : (m.cache.abandon f.key mark).get? key = some entry := h
          rw [Cache.get?_abandon] at h
          split at h
          · cases h
          · exact h

theorem entry_step (formed : Formed n m) (orderly : Orderly (view n m)) {act : Act ρ φ}
    (within : act.isScoped = true) {entry : Cache.Entry ρ}
    (h : (step sup n m act).cache.get? key = some entry) : Origin sup n m act key := by
  cases act with
  | call c =>
      cases c with
      | fetch scope entity id =>
          obtain ⟨scope, rfl⟩ := Option.isSome_iff_exists.mp within
          exact entry_fetch formed scope entity id h
      | move mv =>
          cases mv with
          | put | invalidate | clear => cases within
          | leave scope => exact entry_leave formed scope h
  | wake call reply => exact entry_wake formed orderly call reply h
  | cancel call => exact entry_cancel formed call h

/-! ## Whole runs -/

theorem after_append (sup : Supplier ρ φ σ) : ∀ (n : Nat) (m : Run ρ φ σ) (as bs : List (Act ρ φ)),
    after sup n m (as ++ bs) = after sup (n + as.length) (after sup n m as) bs
  | _, _, [], _ => rfl
  | n, m, a :: as, bs => by
      have hlen : n + (a :: as).length = n + 1 + as.length := by
        simp only [List.length_cons]
        omega
      rw [hlen]
      exact after_append sup (n + 1) (m.step sup n a) as bs

end Run

variable (sup : Supplier ρ φ σ) (oracle : σ)

theorem run_concat (acts : List (Act ρ φ)) (act : Act ρ φ) :
    run sup oracle (acts ++ [act]) = Run.step sup acts.length (run sup oracle acts) act := by
  have h := Run.after_append sup 0 (Run.initial oracle) acts [act]
  rwa [Nat.zero_add] at h

theorem scopes_run (acts : List (Act ρ φ)) :
    (run sup oracle acts).shared.scopes = acts.foldl Act.scopes [] := by
  induction acts using List.reverseRecOn with
  | nil => rfl
  | append_singleton acts act ih =>
      rw [run_concat, Run.scopes_step (run_formed sup oracle acts), ih, List.foldl_concat]

/-- When all scopes are left, they remember nothing. -/
theorem not_remembered {acts : List (Act ρ φ)} (all : AllLeft acts = true) (key : String) :
    ¬ Remembered (run sup oracle acts) key := by
  rintro ⟨scope, hkey⟩
  rw [scopes_run] at hkey
  obtain ⟨hnil, -⟩ := AllLeft.mem_keys all hkey
  cases hnil

theorem askedLate_concat {acts : List (Act ρ φ)} {act : Act ρ φ} {key : String} :
    AskedLate sup oracle (acts ++ [act]) key ↔ AskedLate sup oracle acts key ∨
      ∃ n reply, act = .wake n reply ∧ .asked n key ∉ (run sup oracle acts).events ∧
        .asked n key ∈ (run sup oracle (acts ++ [act])).events ∧
        ¬ Remembered (run sup oracle acts) key := by
  constructor
  · rintro ⟨before, n, reply, after, split, new, asked, forgotten⟩
    rcases List.eq_nil_or_concat after with rfl | ⟨after, last, rfl⟩
    · obtain ⟨rfl, hact⟩ := List.append_inj' split rfl
      cases hact
      exact .inr ⟨n, reply, rfl, new, asked, forgotten⟩
    · refine .inl ⟨before, n, reply, after, ?_, new, asked, forgotten⟩
      have split : acts ++ [act] = (before ++ .wake n reply :: after) ++ [last] := by
        rw [split, List.concat_eq_append]
        simp
      exact (List.append_inj' split rfl).1
  · rintro (⟨before, n, reply, after, rfl, late⟩ | ⟨n, reply, rfl, late⟩)
    · exact ⟨before, n, reply, after ++ [act], by simp, late⟩
    · exact ⟨acts, n, reply, [], rfl, late⟩

/-- Every entry has a scope that remembers its key, or its load was asked for late. -/
theorem remembered_or_late (acts : List (Act ρ φ)) (within : ∀ act ∈ acts, act.isScoped = true)
    {key : String} {entry : Cache.Entry ρ}
    (h : (run sup oracle acts).cache.get? key = some entry) :
    Remembered (run sup oracle acts) key ∨ AskedLate sup oracle acts key := by
  induction acts using List.reverseRecOn generalizing entry with
  | nil => cases h
  | append_singleton acts act ih =>
      have orderly : Orderly (Run.view acts.length (run sup oracle acts)) :=
        .of_moments (run_moments sup oracle acts)
      rw [run_concat] at h
      rw [run_concat]
      have before := fun {entry} => @ih (fun act' hact => within act' (List.mem_append_left _ hact))
        entry
      cases Run.entry_step (run_formed sup oracle acts) orderly (within act (by simp)) h with
      | remembered hkey => exact .inl hkey
      | kept hentry keeps =>
          obtain ⟨entry', hget⟩ := hentry
          exact (before hget).imp keeps fun late => (askedLate_concat sup oracle).mpr (.inl late)
      | woken call reply hact new asked =>
          subst hact
          by_cases hkey : Remembered (run sup oracle acts) key
          · refine .inl ?_
            obtain ⟨scope, hkey⟩ := hkey
            refine ⟨scope, ?_⟩
            rw [Run.scopes_step (run_formed sup oracle acts)]
            exact hkey
          · rw [← run_concat] at asked
            exact .inr <| (askedLate_concat sup oracle).mpr
              (.inr ⟨call, reply, rfl, new, asked, hkey⟩)

/-- **What scopes leave behind.**  Where a cache is used through scopes alone, each entry has a scope
that can still take it away, unless its load was asked for late.  So once every scope was left after
its last fetch began, the cache is empty, however the fetches overlapped, if none asked late. -/
theorem scopes_leave_nothing (acts : List (Act ρ φ)) (within : ∀ act ∈ acts, act.isScoped = true) :
    let m := run sup oracle acts
    (∀ key entry, m.cache.get? key = some entry →
      Remembered m key ∨ AskedLate sup oracle acts key) ∧
    (AllLeft acts = true → (∀ key, ¬ AskedLate sup oracle acts key) → m.cache.entries = []) := by
  intro m
  have owned := fun key entry => @remembered_or_late _ _ _ sup oracle acts within key entry
  refine ⟨owned, fun all timely => Cache.entries_eq_nil fun key => ?_⟩
  refine Option.eq_none_iff_forall_ne_some.mpr fun entry hget => ?_
  rcases owned key entry hget with hkey | late
  · exact not_remembered sup oracle all key hkey
  · exact timely key late

/-- A fetch through one scope pauses behind a load for another, which is left.  Then it loads the
record itself, and its own scope is left too. -/
def relay : List (Act Nat String) :=
  [.call (.fetch (some 0) "task" "1"), .call (.fetch (some 1) "task" "1"),
    .call (.move (.leave 0)), .wake 1 (.ok none), .call (.move (.leave 1))]

/-- The second scope remembers the key when the load is asked for, and takes its mark away. -/
theorem relay_leaves_nothing :
    Remembered (run (patient 1) () (relay.take 4)) "task:1" ∧
    (run (patient 1) () (relay.take 4)).cache.get? "task:1" = some (.loading 1) ∧
    (run (patient 1) () relay).cache.entries = [] := by
  refine ⟨⟨1, by decide +kernel⟩, by decide +kernel, ?_⟩
  refine (scopes_leave_nothing (patient 1) () relay (by decide)).2 (by decide) ?_
  rintro key ⟨before, n, reply, after, split, -, asked, forgotten⟩
  -- Who is woken is woken behind the first three acts.
  obtain ⟨rfl, rfl, rfl⟩ : before = relay.take 3 ∧ n = 1 ∧ reply = .ok none := by
    rcases before with _ | ⟨a, _ | ⟨b, _ | ⟨c, _ | ⟨d, _ | ⟨e, before⟩⟩⟩⟩⟩ <;>
      simp only [relay, List.nil_append, List.cons_append, List.cons.injEq, reduceCtorEq, false_and,
        and_false, Act.wake.injEq, List.nil_eq, List.append_eq_nil_iff] at split
    obtain ⟨rfl, rfl, rfl, ⟨rfl, rfl⟩, -⟩ := split
    exact ⟨rfl, rfl, rfl⟩
  have events : (run (patient 1) () (relay.take 3 ++ [.wake 1 (.ok none)])).events =
      [.begun 0 "task:1", .asked 0 "task:1", .begun 1 "task:1", .paused 1, .dropped ["task:1"],
        .asked 1 "task:1"] := by
    decide +kernel
  rw [events] at asked
  obtain rfl : key = "task:1" := by simpa using asked
  exact forgotten ⟨1, by decide +kernel⟩

/-- Two fetches through one scope, of which the second pauses behind the load of the first; the
scope is left before it is woken. -/
def belated : List (Act Nat String) :=
  [.call (.fetch (some 0) "task" "1"), .call (.fetch (some 0) "task" "1"),
    .call (.move (.leave 0)), .wake 0 (.ok (some 6)), .wake 1 (.ok none), .wake 1 (.ok (some 7))]

/-- The load that was asked for late stays in the cache, where no scope takes it away: all scopes
were left after their fetches began, and nobody waits any more. -/
theorem belated_stays :
    AllLeft belated = true ∧ (run (patient 1) () belated).parked.length = 0 ∧
    (run (patient 1) () belated).cache.get? "task:1" = some (.ready (some 7)) ∧
    AskedLate (patient 1) () belated "task:1" := by
  refine ⟨by decide, by decide +kernel, by decide +kernel, ?_⟩
  refine ⟨belated.take 4, 1, .ok none, [.wake 1 (.ok (some 7))], rfl, ?_, ?_, ?_⟩
  · decide +kernel
  · decide +kernel
  · exact not_remembered (patient 1) () (by decide) "task:1"

end Chronicle

end Toolbar
