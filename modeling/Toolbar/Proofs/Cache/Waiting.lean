/-
# `Toolbar.Proofs.Cache.Waiting` — how long a fetch waits

A fetch that meets the mark of another load pauses and looks again, and what it finds then is up to
everybody else.  So it is followed here from its beginning to its end while others do with the cache
what they like in each of its waits: they may exchange the whole state for another one.

    Diary       what the fetch has done itself: the delays of its pauses, its calls of the loader
    Meanwhile   what it meets when a wait is over
    Course      how far it has come, and what it found under its key when it last looked

    the fetch               has called the loader    because it found
    is in a pause           no
    waits for its load      once                     no record, and a mark only after all its pauses
    has its answer          no                       the record that it answers with
                            once                     no record, and a mark only after all its pauses

`Turned` is this table.  Every turn of a fetch keeps it, whatever it meets, and with each wait that
is over fewer are left (`Fetch.Phase.waits`), so `fetch_bounded` follows by induction on the waits.
-/
import Toolbar.Cache.Deferred
import Toolbar.Proofs.Cache.Turn

namespace Toolbar

variable {ρ φ σ : Type}

/-! ## What a fetch does -/

/-- What a fetch has done: the delays of its pauses, and what it has asked the loader for. -/
structure Diary (σ : Type) where
  oracle : σ
  pauses : List Number := []
  requests : List Request := []

namespace Supplier

/-- The supplier that does what another one does and writes it down. -/
def noted (sup : Supplier ρ φ σ) : Supplier ρ φ (Diary σ) where
  attempts := sup.attempts
  delay := sup.delay
  pause := fun task wait delay d =>
    let (oracle, isOver) := sup.pause task wait delay d.oracle
    ({ d with oracle, pauses := d.pauses ++ [delay] }, isOver)
  ask := fun task wait request d =>
    let (oracle, reply) := sup.ask task wait request d.oracle
    ({ d with oracle, requests := d.requests ++ [request] }, reply)

/-- The delays of the first `k` pauses: the first delay once, twice and so on. -/
def delays (sup : Supplier ρ φ σ) (k : Nat) : List Number :=
  (List.range k).map fun i => sup.delay.scale (i + 1)

@[simp] theorem delays_zero (sup : Supplier ρ φ σ) : sup.delays 0 = [] := rfl

@[simp] theorem length_delays (sup : Supplier ρ φ σ) (k : Nat) : (sup.delays k).length = k := by
  simp [delays]

theorem delays_succ (sup : Supplier ρ φ σ) (k : Nat) :
    sup.delays (k + 1) = sup.delays k ++ [sup.delay.scale (k + 1)] := by
  simp [delays, List.range_succ]

end Supplier

/-- The shared state with another state outside the cache. -/
def Shared.exchange {τ : Type} (s : Shared ρ σ) (outer : τ) : Shared ρ τ :=
  ⟨s.cache, s.scopes, s.waits, outer⟩

/-- Whether a wait is a pause, after which its fetch looks at the cache again. -/
def Wait.isPause {α : Type} : Wait ρ φ σ α → Bool
  | .fetching _ (.pausing _ _) _ => true
  | _ => false

namespace Fetch

/-- What a fetch meets when its wait is over: the state as all others have left it, and the end of
its load if it has waited for that. -/
structure Meanwhile (ρ φ σ : Type) where
  state : Shared ρ σ
  reply : Except φ (Option ρ)

/-- How far a fetch has come, and what it found under its key when it last looked. -/
structure Course (ρ φ σ : Type) where
  found : Option (Cache.Entry ρ)
  state : Shared ρ (Diary σ)
  progress : Progress ρ φ (Diary σ) (Except φ (Option ρ))

namespace Course

/-- What a fetch has done so far. -/
def diary (c : Course ρ φ σ) : Diary σ := c.state.outer

/-- A fetch at its first turn. -/
def begin (sup : Supplier ρ φ σ) (f : Fetch) (scope : Option Nat) (s : Shared ρ σ) :
    Course ρ φ σ :=
  let r := (Task.fetch scope f.entity f.id .done).run sup.noted f.task
    (s.exchange { oracle := s.outer })
  ⟨s.cache.get? f.key, r.1, r.2⟩

/-- A fetch after its wait is over.  Only its diary is left of the state before. -/
def wake (sup : Supplier ρ φ σ) (f : Fetch) (c : Course ρ φ σ) (m : Meanwhile ρ φ σ) :
    Course ρ φ σ :=
  match c.progress with
  | .finished _ => c
  | .parked w =>
      let r := Machine.resume sup.noted (fun _ d => (d, m.reply)) ⟨c.state.waits, f.task, w⟩
        (m.state.exchange { c.diary with oracle := m.state.outer })
      ⟨if w.isPause then m.state.cache.get? f.key else c.found, r.1, r.2⟩

end Course

/-- How far a fetch has come when its waits are over one after the other. -/
def course (sup : Supplier ρ φ σ) (f : Fetch) (scope : Option Nat) (s : Shared ρ σ)
    (ms : List (Meanwhile ρ φ σ)) : Course ρ φ σ :=
  ms.foldl (Course.wake sup f) (.begin sup f scope s)

/-! ## What every turn keeps -/

section Turns

/-- A fetch that looks at the cache, with so many pauses behind and left, has not called the
loader. -/
structure Looking (sup : Supplier ρ φ σ) (attempt left : Nat) (d : Diary σ) : Prop where
  pauses : d.pauses = sup.delays attempt
  bound : attempt + left = sup.attempts
  requests : d.requests = []

/-- A fetch that has called the loader did so once, for want of a record; where it found a mark it
had made all its pauses. -/
structure Loading (sup : Supplier ρ φ σ) (f : Fetch) (found : Option (Cache.Entry ρ))
    (d : Diary σ) : Prop where
  pauses : ∃ k ≤ sup.attempts, d.pauses = sup.delays k
  requests : d.requests = [f.request]
  missing : ∀ record, found ≠ some (.ready (some record))
  takeover : ∀ mark, found = some (.loading mark) → d.pauses = sup.delays sup.attempts

/-- What a fetch has done that has come to a turn. -/
inductive Turned (sup : Supplier ρ φ σ) (f : Fetch) (found : Option (Cache.Entry ρ)) :
    Diary σ → Turn ρ φ → Prop
  | pausing {d : Diary σ} {attempt left : Nat} : Looking sup attempt left d →
      Turned sup f found d (.waiting (.pausing attempt left))
  | loading {d : Diary σ} {mark : Nat} : Loading sup f found d →
      Turned sup f found d (.waiting (.loading mark))
  | hit {d : Diary σ} {attempt left : Nat} {record : ρ} : Looking sup attempt left d →
      found = some (.ready (some record)) →
      Turned sup f found d (.answered (.ok (some record)))
  | loaded {d : Diary σ} {reply : Except φ (Option ρ)} : Loading sup f found d →
      Turned sup f found d (.answered reply)

variable {sup : Supplier ρ φ σ} {f : Fetch} {found : Option (Cache.Entry ρ)}
  {s : Shared ρ (Diary σ)} {attempt left : Nat} {d : Diary σ} {t : Turn ρ φ}

theorem Looking.few (h : Looking sup attempt left d) :
    ∃ k ≤ sup.attempts, d.pauses = sup.delays k := by
  refine ⟨attempt, ?_, h.pauses⟩
  rw [← h.bound]
  exact Nat.le_add_right attempt left

namespace Turned

theorem pauses (h : Turned sup f found d t) : ∃ k ≤ sup.attempts, d.pauses = sup.delays k := by
  cases h with
  | pausing looking | hit looking _ => exact looking.few
  | loading loading | loaded loading => exact loading.pauses

theorem requests (h : Turned sup f found d t) : d.requests = [] ∨ d.requests = [f.request] := by
  cases h with
  | pausing looking | hit looking _ => exact .inl looking.requests
  | loading loading | loaded loading => exact .inr loading.requests

/-- Where a mark was found and the loader has been called, no pause is left. -/
theorem takeover (h : Turned sup f found d t) {mark : Nat} (called : d.requests ≠ [])
    (hmark : found = some (.loading mark)) : d.pauses = sup.delays sup.attempts := by
  cases h with
  | pausing looking | hit looking _ => exact absurd looking.requests called
  | loading loading | loaded loading => exact loading.takeover mark hmark

/-- An answer without a load is a record that was found, and the other way round. -/
theorem answer {reply : Except φ (Option ρ)} (h : Turned sup f found d (.answered reply)) :
    d.requests = [] ↔ ∃ record, found = some (.ready (some record)) ∧ reply = .ok (some record) := by
  cases h with
  | hit looking hfound => exact ⟨fun _ => ⟨_, hfound, rfl⟩, fun _ => looking.requests⟩
  | loaded loading =>
      constructor
      · intro hnone
        rw [loading.requests] at hnone
        cases hnone
      · rintro ⟨record, hfound, -⟩
        exact absurd hfound (loading.missing record)

end Turned

/-- The loader is called where there is no record, and either no mark or no pause left. -/
theorem load_turned (h : Looking sup attempt left s.outer) (hfound : s.cache.get? f.key = found)
    (missing : s.cache.record? f.key = none)
    (exhausted : s.cache.isLoading f.key = true → left = 0) :
    Turned sup f found (f.load sup.noted s).1.outer (f.load sup.noted s).2 := by
  have loads : ∀ d : Diary σ, d.pauses = s.outer.pauses →
      d.requests = s.outer.requests ++ [f.request] → Loading sup f found d := by
    intro d hpauses hrequests
    refine ⟨by rw [hpauses]; exact h.few, ?_, ?_, ?_⟩
    · rw [hrequests, h.requests, List.nil_append]
    · intro record hrecord
      rw [Cache.record?_eq_some_iff.mpr (hfound.trans hrecord)] at missing
      cases missing
    · intro mark hmark
      have hleft : left = 0 := exhausted (Cache.isLoading_iff.mpr ⟨mark, hfound.trans hmark⟩)
      have hattempt : attempt = sup.attempts := by
        have := h.bound
        omega
      rw [hpauses, h.pauses, hattempt]
  rcases hask : sup.ask f.task (s.waits + 1) f.request s.outer.oracle with ⟨oracle, _ | reply⟩
  · simp only [load, Supplier.noted, hask]
    exact .loading (loads _ rfl rfl)
  · simp only [load, Supplier.noted, hask]
    exact .loaded (loads _ rfl rfl)

/-- A fetch that finds no record pauses or loads.  Pauses that are over at once leave the cache as
it is. -/
theorem pauseOrLoad_turned (h : Looking sup attempt left s.outer)
    (hfound : s.cache.get? f.key = found) (missing : s.cache.record? f.key = none) :
    Turned sup f found (f.pauseOrLoad sup.noted attempt left s).1.outer
      (f.pauseOrLoad sup.noted attempt left s).2 := by
  induction left generalizing attempt s with
  | zero => exact load_turned h hfound missing fun _ => rfl
  | succ left ih =>
      unfold pauseOrLoad
      by_cases hloading : s.cache.isLoading f.key = true
      · rw [if_pos hloading]
        rcases hpause : sup.pause f.task (s.waits + 1) (sup.delay.scale (attempt + 1))
          s.outer.oracle with ⟨oracle, isOver⟩
        have paused : Looking sup (attempt + 1) left
            { s.outer with
              oracle, pauses := s.outer.pauses ++ [sup.delay.scale (attempt + 1)] } := by
          refine ⟨?_, ?_, h.requests⟩
          · rw [Supplier.delays_succ, h.pauses]
          · have := h.bound
            omega
        simp only [Supplier.noted, hpause]
        cases isOver with
        | true => exact ih paused hfound missing
        | false => exact .pausing paused
      · rw [if_neg hloading]
        exact load_turned h hfound missing fun hl => absurd hl hloading

theorem proceed_turned (h : Looking sup attempt left s.outer) :
    Turned sup f (s.cache.get? f.key) (f.proceed sup.noted attempt left s).1.outer
      (f.proceed sup.noted attempt left s).2 := by
  unfold proceed
  split
  next record hrecord => exact .hit h (Cache.record?_eq_some_iff.mp hrecord)
  next missing => exact pauseOrLoad_turned h rfl missing

/-! ## The waits of a fetch -/

/-- How many waits a fetch can still have, this one counted. -/
def Phase.waits (p : Phase) : Nat :=
  p.pauses + 1

/-- How many waits a fetch can still have that has come to a turn. -/
def Turn.waits : Turn ρ φ → Nat
  | .answered _ => 0
  | .waiting phase => phase.waits

theorem proceed_waits_le (s : Shared ρ (Diary σ)) :
    (f.proceed sup.noted attempt left s).2.waits ≤ left + 1 := by
  have comes := proceed_comes sup.noted f attempt left s
  cases hturn : (f.proceed sup.noted attempt left s).2 with
  | answered reply => exact Nat.zero_le _
  | waiting phase => exact Nat.succ_le_succ (comes.pauses_le hturn)

end Turns

/-! ## The course of a fetch -/

/-- What a fetch by itself has come to at a turn. -/
def Turn.progress (f : Fetch) : Turn ρ φ → Progress ρ φ (Diary σ) (Except φ (Option ρ))
  | .answered reply => .finished reply
  | .waiting phase => .parked (.fetching f phase .done)

/-- What holds of the course of a fetch that has come to a turn and has at most `n` waits to come. -/
structure Course.Kept (sup : Supplier ρ φ σ) (f : Fetch) (n : Nat) (c : Course ρ φ σ)
    (t : Turn ρ φ) : Prop where
  turned : Turned sup f c.found c.diary t
  progress : c.progress = t.progress f
  waits : t.waits ≤ n

section Following

variable (sup : Supplier ρ φ σ) (f : Fetch)

theorem run_begin (scope : Option Nat) (s : Shared ρ (Diary σ)) :
    (Task.fetch scope f.entity f.id .done).run sup.noted f.task s =
      ((f.start sup.noted (s.touch scope f.key)).1,
        (f.start sup.noted (s.touch scope f.key)).2.progress f) := by
  simp only [Task.run]
  rcases f.start sup.noted (s.touch scope f.key) with ⟨t, reply | phase⟩ <;> rfl

theorem resume_pausing (answer : Request → Diary σ → Diary σ × Except φ (Option ρ))
    (wait attempt left : Nat) (s : Shared ρ (Diary σ)) :
    Machine.resume sup.noted answer ⟨wait, f.task, .fetching f (.pausing attempt left) .done⟩ s =
      ((f.proceed sup.noted attempt left s).1,
        (f.proceed sup.noted attempt left s).2.progress f) := by
  simp only [Machine.resume]
  rcases f.proceed sup.noted attempt left s with ⟨t, reply | phase⟩ <;> rfl

theorem begin_kept (scope : Option Nat) (s : Shared ρ σ) :
    ∃ t, (Course.begin sup f scope s).Kept sup f (sup.attempts + 1) t := by
  let s₀ : Shared ρ (Diary σ) := (s.exchange { oracle := s.outer }).touch scope f.key
  have hcache : s₀.cache = s.cache := by cases scope <;> rfl
  have houter : s₀.outer = { oracle := s.outer } := by cases scope <;> rfl
  have looking : Looking sup 0 sup.attempts s₀.outer := by
    rw [houter]
    exact ⟨sup.delays_zero.symm, Nat.zero_add _, rfl⟩
  have turned := proceed_turned (f := f) looking
  have hrun := run_begin sup f scope (s.exchange { oracle := s.outer })
  rw [hcache] at turned
  refine ⟨_, ?_, congrArg Prod.snd hrun, proceed_waits_le s₀⟩
  rw [Course.diary, Course.begin, hrun]
  exact turned

/-- With every wait that is over fewer are left, whatever has become of the state. -/
theorem wake_kept {c : Course ρ φ σ} {n : Nat} {t : Turn ρ φ} (h : c.Kept sup f (n + 1) t)
    (m : Meanwhile ρ φ σ) : ∃ t', (c.wake sup f m).Kept sup f n t' := by
  obtain ⟨turned, progress, waits⟩ := h
  cases t with
  | answered reply =>
      have hwake : c.wake sup f m = c := by simp only [Course.wake, progress, Turn.progress]
      rw [hwake]
      exact ⟨_, turned, progress, Nat.zero_le n⟩
  | waiting phase =>
      cases turned with
      | loading loading =>
          refine ⟨.answered m.reply, ?_, ?_, Nat.zero_le n⟩
          · simp only [Course.wake, progress, Turn.progress]
            exact .loaded ⟨loading.pauses, loading.requests, loading.missing, loading.takeover⟩
          · simp only [Course.wake, progress, Turn.progress]
            rfl
      | @pausing attempt left looking =>
          let s₀ : Shared ρ (Diary σ) :=
            m.state.exchange { c.diary with oracle := m.state.outer }
          have woken : Looking sup attempt left s₀.outer :=
            ⟨looking.pauses, looking.bound, looking.requests⟩
          have hwake : c.wake sup f m = ⟨m.state.cache.get? f.key,
              (f.proceed sup.noted attempt left s₀).1,
              (f.proceed sup.noted attempt left s₀).2.progress f⟩ := by
            simp only [Course.wake, progress, Turn.progress]
            rw [resume_pausing]
            rfl
          have hwaits : left + 1 ≤ n := Nat.le_of_succ_le_succ waits
          rw [hwake]
          exact ⟨_, proceed_turned woken, rfl, Nat.le_trans (proceed_waits_le s₀) hwaits⟩

theorem foldl_kept (ms : List (Meanwhile ρ φ σ)) {c : Course ρ φ σ} {n : Nat} {t : Turn ρ φ}
    (h : c.Kept sup f n t) : ∃ t', (ms.foldl (Course.wake sup f) c).Kept sup f (n - ms.length) t' := by
  induction ms generalizing c n t with
  | nil => exact ⟨t, h⟩
  | cons m ms ih =>
      have more : c.Kept sup f (n - 1 + 1) t :=
        ⟨h.turned, h.progress, Nat.le_trans h.waits (by omega)⟩
      obtain ⟨t', woken⟩ := wake_kept sup f more m
      obtain ⟨t'', kept⟩ := ih woken
      refine ⟨t'', kept.turned, kept.progress, Nat.le_trans kept.waits (Nat.le_of_eq ?_)⟩
      rw [List.length_cons, Nat.sub_sub, Nat.add_comm 1]

/-- **A fetch waits for a while and loads at most once.**  Whatever others make of the state in its
waits: its pauses are at most as many as it may make, each longer than the one before by the first
delay; it calls the loader once at most; it has its answer without a load exactly when it found a
record when it looked last, and this is its answer then; and where it found a mark and loads, it has
made all its pauses.  When so many waits are over, and one more for its load, it has its answer. -/
theorem fetch_bounded (scope : Option Nat) (s : Shared ρ σ) (ms : List (Meanwhile ρ φ σ)) :
    let c := f.course sup scope s ms
    (∃ k ≤ sup.attempts, c.diary.pauses = sup.delays k) ∧
    (c.diary.requests = [] ∨ c.diary.requests = [f.request]) ∧
    (∀ reply, c.progress = .finished reply → (c.diary.requests = [] ↔
      ∃ record, c.found = some (.ready (some record)) ∧ reply = .ok (some record))) ∧
    (∀ mark, c.diary.requests ≠ [] → c.found = some (.loading mark) →
      c.diary.pauses = sup.delays sup.attempts) ∧
    (sup.attempts < ms.length → ∃ reply, c.progress = .finished reply) := by
  intro c
  obtain ⟨t₀, begun⟩ := begin_kept sup f scope s
  obtain ⟨t, turned, progress, waits⟩ := foldl_kept sup f ms begun
  change Turned sup f c.found c.diary t at turned
  change c.progress = t.progress f at progress
  have ends : sup.attempts < ms.length → ∃ reply, c.progress = .finished reply := by
    intro hlong
    cases t with
    | answered reply => exact ⟨reply, progress⟩
    | waiting phase =>
        have hwaits : phase.pauses + 1 ≤ sup.attempts + 1 - ms.length := waits
        omega
  refine ⟨turned.pauses, turned.requests, ?_, fun mark => turned.takeover, ends⟩
  intro reply hreply
  cases t with
  | waiting phase =>
      rw [progress] at hreply
      cases hreply
  | answered answer =>
      rw [progress] at hreply
      cases hreply
      exact turned.answer

end Following

/-- A cache with a mark that nobody ever takes away. -/
def stuck : Shared Nat (List Deferral) :=
  { cache := (({} : Cache Nat).claim "task:1").1, outer := [] }

/-- Behind it a fetch pauses twice if it may, loads the record itself, and has its answer after one
more wait. -/
theorem stuck_bounded :
    let c := (⟨0, "task", "1"⟩ : Fetch).course (.deferred Nat String 2 (.int 3)) none stuck
      (List.replicate 3 ⟨stuck, .ok (some 5)⟩)
    c.diary.pauses = [.int 3, .int 6] ∧ c.diary.requests = [.record "task" "1"] ∧
      ∃ reply, c.progress = .finished reply := by
  intro c
  obtain ⟨-, loads, -, takeover, ends⟩ := fetch_bounded (.deferred Nat String 2 (.int 3))
    ⟨0, "task", "1"⟩ none stuck (List.replicate 3 ⟨stuck, .ok (some 5)⟩)
  have asked : c.diary.requests ≠ [] := by decide +kernel
  exact ⟨takeover 0 asked (by decide +kernel), loads.resolve_left asked, ends (by decide)⟩

end Fetch

end Toolbar
