/-
# `Toolbar.Proofs.Pipeline.Overlap` — calls that overlap

Runs, reloads and new configurations of one pipeline overlap wherever they wait, and each goes on
with the pipeline as it finds it.  A cycle that has waited puts its buttons down without a look at
what has become of the record and of the configurations that it began with.  So buttons may be
stale, but only behind a cycle that was disturbed in a wait:

    while a load waits      other loads may begin and end, in any order, and cycles too
    while a cycle waits     others may begin to load the record, and no more

As long as acts are `Undisturbed` in this sense, a resolved pipeline shows the buttons of its own
record and configurations (`resolved_fresh`).  The proof turns on where a call waits: from its load
it goes on well in any state (`InLoad`), from its cycle in the states to which `Drift.loads` leads
(`Held`).
-/
import Toolbar.Proofs.Pipeline.Cycle

namespace Toolbar

/-- Nothing but the start of a load has happened to the pipeline. -/
def Drift.loads : Drift where
  May := fun p q => q = p ∨ q = p.loading
  refl := fun _ => .inl rfl
  trans := by
    rintro p _ _ (rfl | rfl) (rfl | rfl)
    · exact .inl rfl
    · exact .inr rfl
    · exact .inr rfl
    · exact .inr rfl
  keeps := by
    rintro p _ (rfl | rfl)
    · exact ⟨rfl, rfl, rfl, rfl, rfl⟩
    · exact ⟨rfl, rfl, rfl, rfl, rfl⟩

namespace Pipeline

/-! ## Fresh buttons -/

/-- Nothing is wrong with a pipeline, and its buttons are those that its configurations make about a
record. -/
structure Fresh (supply : Supply) (record : Value) (p : Pipeline) : Prop where
  error : p.error = none
  loaded : p.recordLoaded = true
  made : ∃ sorted, Button.sortByPosition p.configs = .ok sorted ∧
    MakesEach supply.Found record p.host sorted (.ok p.buttons)

/-- A pipeline of the session that is fresh when it is resolved. -/
def Current (supply : Supply) (n : Nat) (s : Shared Nat Session) : Prop :=
  ∃ p record, At supply n p record s ∧ (p.stage = .resolved → Fresh supply record p)

section Fresh

variable {supply : Supply} {n : Nat} {record : Value} {p q : Pipeline} {s t : Shared Nat Session}
  {r : Except Fault (List Button.Shown)}

theorem Current.coherent (h : Current supply n s) : supply.Coherent s := by
  obtain ⟨p, record, hat, -⟩ := h
  exact hat.coherent

theorem Current.drifts (h : Current supply n s) (ht : supply.Drifts .still n s t) :
    Current supply n t := by
  obtain ⟨p, record, hat, hfresh⟩ := h
  obtain ⟨_, hat, rfl⟩ := hat.drifts ht
  exact ⟨p, record, hat, hfresh⟩

theorem Adrift.current (h : Adrift supply .loads n p record s) (hp : p.stage ≠ .resolved) :
    Current supply n s := by
  obtain ⟨_, hat, rfl | rfl⟩ := h
  · exact ⟨_, record, hat, fun hstage => absurd hstage hp⟩
  · exact ⟨_, record, hat, fun hstage => nomatch hstage⟩

/-- A cycle makes the pipeline fresh or leaves it unresolved. -/
theorem Cycled.fresh (h : Cycled supply.Found .loads record p q r)
    (loaded : p.stage = .resolved → p.recordLoaded = true) :
    q.stage = .resolved → Fresh supply record q := by
  intro hstage
  cases h with
  | refused hno =>
      rw [mayStart, loaded hstage, hstage] at hno
      cases hno
  | unhashed _ _ => cases hstage
  | unsorted _ _ _ => cases hstage
  | failed _ _ _ _ _ => cases hstage
  | resolved start _ hsort hmakes hmay =>
      have hloaded : p.recordLoaded = true := (Bool.and_eq_true_iff.mp start).1
      obtain rfl | rfl := hmay
      · exact ⟨rfl, hloaded, _, hsort, hmakes⟩
      · exact ⟨rfl, hloaded, _, hsort, hmakes⟩

theorem Answered.fresh {entity id : String}
    (h : Answered supply .loads entity id p record q r) :
    q.stage = .resolved → Fresh supply record q := by
  cases h with
  | failed _ => exact fun hstage => nomatch hstage
  | loaded _ hcycled => exact hcycled.fresh fun _ => rfl

theorem Replaced.fresh {configs : List Button.Config}
    (h : Replaced supply .loads record p configs q r)
    (hp : p.stage = .resolved → Fresh supply record p) :
    q.stage = .resolved → Fresh supply record q := by
  cases h with
  | kept _ _ _ => exact hp
  | unhashed _ _ => exact hp
  | replaced _ hcycled => exact hcycled.fresh fun hstage => (hp hstage).loaded

end Fresh

/-! ## Calls that wait -/

/-- What a call has come to. -/
abbrev Outcome :=
  Shared Nat Session × Progress Nat StoreFault Session (Except Fault (List Button.Shown))

/-- A call waits in its load.  What it makes of the result of the cycle does not matter. -/
def InLoad (n : Nat) (w : Wait Nat StoreFault Session (Except Fault (List Button.Shown))) : Prop :=
  ∃ f phase, ∃ g : Except Fault (List Button.Shown) → Except Fault (List Button.Shown),
    w = .fetching f phase fun reply => (afterLoad n reply).bind fun r => .done (g r)

theorem inLoad_fetching {n : Nat} (f : Fetch) (phase : Fetch.Phase) :
    InLoad n (.fetching f phase (afterLoad n)) := by
  have hnext : (fun reply => (afterLoad n reply).bind fun r => .done (id r)) = afterLoad n :=
    funext fun reply => Task.bind_done _
  exact ⟨f, phase, id, by rw [hnext]⟩

/-- A call that waits ends well unless it is disturbed. -/
def Held (supply : Supply) (n number : Nat) (s : Shared Nat Session)
    (w : Wait Nat StoreFault Session (Except Fault (List Button.Shown))) : Prop :=
  ∀ t, supply.Drifts .loads n s t →
    supply.Ends .loads n number (Current supply n) (fun t _ => Current supply n t) t.outer.shelf
      (supply.wake number w t)

/-- A call has gone on well, with `before` on the shelf. -/
structure Goes (supply : Supply) (n number : Nat) (before : Shelf) (r : Outcome) : Prop where
  within : before.Within r.1.outer.shelf
  current : Current supply n r.1
  waits : ∀ w, r.2 = .parked w → InLoad n w ∨ Held supply n number r.1 w

section Going

variable {supply : Supply} {n number : Nat} {s : Shared Nat Session} {before : Shelf} {r : Outcome}

theorem goes_of_ends (h : supply.Ends .loads n number (Current supply n)
    (fun t _ => Current supply n t) before r) : Goes supply n number before r := by
  cases h with
  | finished hw h => exact ⟨hw, h, fun _ hparked => nomatch hparked⟩
  | parked hw h hwake =>
      refine ⟨hw, h, fun w hparked => .inr ?_⟩
      cases hparked
      exact hwake

/-- A load goes on well, from wherever it is woken. -/
theorem goes_of_turns {f : Fetch} {left : Nat}
    {g : Except Fault (List Button.Shown) → Except Fault (List Button.Shown)}
    (current : Current supply n s)
    (turns : supply.Turns f (fun reply => (afterLoad n reply).bind fun r => .done (g r)) number
      left s r) : Goes supply n number s.outer.shelf r := by
  cases turns with
  | waits onward _ =>
      refine ⟨onward.within, current.drifts onward.drifts, fun w hparked => .inl ?_⟩
      cases hparked
      exact ⟨_, _, g, rfl⟩
  | goes onward told =>
      -- The answer replaces the record, so nothing is asked of the one that was there before.
      obtain ⟨p, _, hat, -⟩ := current.drifts onward.drifts
      have ends : supply.Ends .loads n number (Current supply n) _ _ _ :=
        afterLoad_ends hat.toStands told
        fun t v place other hash h => h.current fun hstage => nomatch hstage
      refine goes_of_ends (.of_within onward.within (ends.bind fun t r ⟨v, q, ht, hr⟩ => ?_))
      exact .finished (.refl _) ⟨q, v, ht, hr.fresh⟩

theorem run_goes (g : Except Fault (List Button.Shown) → Except Fault (List Button.Shown))
    (current : Current supply n s) : Goes supply n number s.outer.shelf
      (((run n).bind fun r => .done (g r)).run supply.supplier number s) := by
  obtain ⟨p, record, hat, -⟩ := current
  have hloading : At supply n p.loading record _ := hat.change (f := loading) rfl rfl rfl
  have hpipeline := hloading.pipeline
  rw [Task.run_bind]
  cases hnew : Record.isNew p.recordId with
  | true =>
      rw [run_new (by rw [hpipeline]; exact hnew)]
      obtain ⟨place, hat⟩ := hloading.new
      have ends : supply.Ends .loads n number (Current supply n) _ _ _ := cycle_ends hat
        fun t hash h => h.current fun hstage => nomatch hstage
      refine goes_of_ends (.of_within (within_newPipelineRecord n _)
        (ends.andThen fun t r ⟨q, ht, hr⟩ => ?_))
      exact .finished (.refl _) ⟨q, _, ht, hr.fresh fun _ => rfl⟩
  | false =>
      rw [run_stored (by rw [hpipeline]; exact hnew), ← Task.run_bind]
      have current : Current supply n { s with outer := s.outer.onPipeline n loading } :=
        ⟨p.loading, record, hloading, fun hstage => nomatch hstage⟩
      exact (goes_of_turns (g := g) current (Supply.turns_fetch current.coherent) :)

theorem reload_goes (g : Except Fault (List Button.Shown) → Except Fault (List Button.Shown))
    (current : Current supply n s) : Goes supply n number s.outer.shelf
      (((reload n).bind fun r => .done (g r)).run supply.supplier number s) :=
  run_goes g (current.drifts (current.coherent.invalidate _ _).drifts)

/-- Every call goes on well. -/
theorem call_goes (c : Call) (current : Current supply n s) :
    Goes supply n number s.outer.shelf ((c.work n).run supply.supplier number s) := by
  cases c with
  | run =>
      have goes : Goes supply n number _ _ := run_goes id current
      rw [show (fun r => Task.done (id r)) = (Task.done : _ → Work _) from rfl,
        Task.bind_done] at goes
      exact goes
  | reload =>
      have goes : Goes supply n number _ _ := reload_goes id current
      rw [show (fun r => Task.done (id r)) = (Task.done : _ → Work _) from rfl,
        Task.bind_done] at goes
      exact goes
  | setConfigs configs =>
      obtain ⟨p, record, hat, hfresh⟩ := current
      have ends : supply.Ends .loads n number (Current supply n) _ _ _ :=
        setConfigs_ends configs hat
        fun t hash h => h.current fun hstage => nomatch hstage
      refine goes_of_ends (ends.mono (fun _ h => h) fun t r ⟨q, ht, hr⟩ => ?_)
      exact ⟨q, record, ht, hr.fresh hfresh⟩
  | saved payload =>
      rw [saved_work]
      split
      · exact reload_goes (fun _ => .ok []) current
      · exact ⟨.refl _, current, fun _ hparked => nomatch hparked⟩

theorem Answered.stage_ne {drift : Drift} {entity id : String} {record : Value} {p q : Pipeline}
    {r : Except Fault (List Button.Shown)} (h : Answered supply drift entity id p record q r) :
    q.stage ≠ .loadingRecord := by
  cases h with
  | failed _ => exact Stage.noConfusion
  | loaded _ hcycled =>
      cases hcycled with
      | refused hno => cases hno
      | unhashed _ _ => exact Stage.noConfusion
      | unsorted _ _ _ => exact Stage.noConfusion
      | failed _ _ _ _ _ => exact Stage.noConfusion
      | resolved _ _ _ _ _ => exact Stage.noConfusion

/-- While a pipeline is loading nothing has been answered yet. -/
theorem waits_of_turns {f : Fetch} {left : Nat} {p : Pipeline} (h : Stands supply n p s)
    (turns : supply.Turns f (afterLoad n) number left s r)
    (loading : (r.1.outer.pipeline n).stage = .loadingRecord) :
    r.1.outer.pipeline n = p ∧ ∀ w, r.2 = .parked w → InLoad n w := by
  cases turns with
  | waits onward _ =>
      refine ⟨(h.onward onward).pipeline, fun w hparked => ?_⟩
      cases hparked
      exact inLoad_fetching f _
  | goes onward told =>
      -- With its answer the load has left the stage of loading, wherever its cycle waits now.
      have behind : ∀ {q t}, Stands supply n q t → q.stage ≠ .loadingRecord →
          (t.outer.pipeline n).stage ≠ .loadingRecord := by
        intro q t hq hstage
        rwa [hq.pipeline]
      have during : ∀ t v place other hash,
          Adrift supply .still n ((p.loaded place other).hashed hash) v t →
          (t.outer.pipeline n).stage ≠ .loadingRecord := by
        rintro t v place other hash ⟨_, hq, rfl⟩
        exact behind hq.toStands Stage.noConfusion
      refine absurd loading ((afterLoad_ends (h.onward onward) told during).now ?_)
      exact fun t r ⟨v, q, hq, hr⟩ => behind hq.toStands hr.stage_ne

/-- A reload that leaves the pipeline loading has done nothing else to it, and waits in its load. -/
theorem reload_waits {p : Pipeline} (h : Stands supply n p s)
    (stored : Record.isNew p.recordId = false)
    (loading : (((reload n).run supply.supplier number s).1.outer.pipeline n).stage =
      .loadingRecord) :
    ((reload n).run supply.supplier number s).1.outer.pipeline n = p.loading ∧
      ∀ w, ((reload n).run supply.supplier number s).2 = .parked w → InLoad n w := by
  have hloading := h.leave.change Pipeline.loading
  have hpipeline := hloading.pipeline
  have hrun : (reload n).run supply.supplier number s =
      (run n).run supply.supplier number ((Move.leave n).apply s).1 := rfl
  rw [hrun, run_stored (by rw [hpipeline]; exact stored)] at loading ⊢
  exact waits_of_turns hloading (Supply.turns_fetch hloading.coherent) loading

end Going

/-! ## Schedules -/

/-- The calls of one pipeline that are under way. -/
abbrev Pool := Machine Nat StoreFault Session (Except Fault (List Button.Shown))

/-- One act of a schedule. -/
inductive Act where
  | call (number : Nat) (c : Call)
  | release (wait : Nat)
  /-- Something happens elsewhere. -/
  | elsewhere (shared : Shared Nat Session)

namespace Pool

section

variable (supply : Supply) (n : Nat)

/-- After an act. -/
def step (m : Pool) : Act → Pool
  | .call number c => (m.start supply.supplier number (c.work n)).1
  | .release wait => (m.release supply.supplier supply.reply wait).1
  | .elsewhere shared => { m with shared }

/-- After acts. -/
def after : Pool → List Act → Pool
  | m, [] => m
  | m, act :: acts => after (step supply n m act) acts

/-- While a cycle waits others at most begin to load; what happens elsewhere leaves the pipeline
alone. -/
structure Quiet (m : Pool) (act : Act) : Prop where
  elsewhere : ∀ shared, act = .elsewhere shared → supply.Drifts .still n m.shared shared
  cycles : ∀ q ∈ m.parked, ¬ InLoad n q.what → act ≠ .release q.wait →
    Drift.loads.May (m.shared.outer.pipeline n) ((step supply n m act).shared.outer.pipeline n)

/-- No cycle is disturbed in its waits. -/
def Undisturbed : Pool → List Act → Prop
  | _, [] => True
  | m, act :: acts => Quiet supply n m act ∧ Undisturbed (step supply n m act) acts

/-- The pipeline is current, and every call that waits goes on well. -/
structure Sound (m : Pool) : Prop where
  current : Current supply n m.shared
  waits : ∀ q ∈ m.parked, InLoad n q.what ∨ Held supply n q.task m.shared q.what

end

variable {supply : Supply} {n : Nat} {m : Pool}

theorem Sound.drifts (h : Sound supply n m) {parked : List (Parked Nat StoreFault Session _)}
    {shared : Shared Nat Session} (current : Current supply n shared)
    (subset : ∀ q ∈ parked, q ∈ m.parked)
    (drifts : ∀ q ∈ parked, ¬ InLoad n q.what → supply.Drifts .loads n m.shared shared) :
    Sound supply n ⟨shared, parked⟩ := by
  refine ⟨current, fun q hq => ?_⟩
  -- A load stays one whatever happens; a cycle only while the pipeline drifts as it may.
  by_cases hload : InLoad n q.what
  · exact .inl hload
  · have held := (h.waits q (subset q hq)).resolve_left hload
    exact .inr fun t ht => held t ((drifts q hq hload).trans ht)

/-- A call goes on while those in `parked` wait. -/
theorem Sound.record (h : Sound supply n m) {number : Nat} {r : Outcome}
    (goes : Goes supply n number m.shared.outer.shelf r)
    {parked : List (Parked Nat StoreFault Session _)} (subset : ∀ q ∈ parked, q ∈ m.parked)
    (quiet : ∀ q ∈ parked, ¬ InLoad n q.what →
      Drift.loads.May (m.shared.outer.pipeline n) (r.1.outer.pipeline n)) :
    Sound supply n (Machine.record ⟨m.shared, parked⟩ number r).1 := by
  have others : Sound supply n ⟨r.1, parked⟩ := by
    refine h.drifts goes.current subset fun q hq hload => ⟨goes.current.coherent, goes.within, ?_⟩
    intro p hp
    obtain ⟨p', _, hat, -⟩ := goes.current
    have may := quiet q hq hload
    rw [hat.pipeline, Session.pipeline, hp, Option.getD_some] at may
    exact ⟨p', hat.has, may⟩
  rcases r with ⟨t, a | w⟩
  · exact others
  · refine ⟨others.current, fun q hq => ?_⟩
    rcases List.mem_append.mp hq with hq | hq
    · exact others.waits q hq
    · rw [List.mem_singleton.mp hq]
      exact goes.waits w rfl

theorem Sound.step (h : Sound supply n m) {act : Act} (quiet : Quiet supply n m act) :
    Sound supply n (step supply n m act) := by
  have cycles := quiet.cycles
  cases act with
  | call number c =>
      simp only [Pool.step, Machine.start, Machine.record_shared] at cycles ⊢
      exact h.record (call_goes c h.current) (fun _ hq => hq) fun q hq hload =>
        cycles q hq hload fun heq => by cases heq
  | release wait =>
      simp only [Pool.step, Machine.release] at cycles ⊢
      cases hfind : m.parked.find? (·.wait == wait) with
      | none => exact h
      | some p =>
          simp only [hfind, Machine.record_shared] at cycles ⊢
          have goes : Goes supply n p.task m.shared.outer.shelf
              (supply.wake p.task p.what m.shared) := by
            rcases h.waits p (List.mem_of_find?_eq_some hfind) with ⟨f, phase, g, hwhat⟩ | held
            · rw [hwhat]
              exact goes_of_turns h.current (Supply.turns_wake h.current.coherent)
            · exact goes_of_ends (held m.shared h.current.coherent.onward.drifts)
          refine h.record goes (fun _ hq => List.mem_of_mem_filter hq) fun q hq hload => ?_
          -- What was released no longer waits, so it is not among those that may mind.
          refine cycles q (List.mem_of_mem_filter hq) hload fun heq => ?_
          cases heq
          simpa using List.of_mem_filter hq
  | elsewhere shared =>
      have still := quiet.elsewhere shared rfl
      exact h.drifts (h.current.drifts still) (fun _ hq => hq) fun _ _ _ => still.of_still

theorem Sound.after {acts : List Act} (h : Sound supply n m)
    (undisturbed : Undisturbed supply n m acts) : Sound supply n (after supply n m acts) := by
  induction acts generalizing m with
  | nil => exact h
  | cons act acts ih => exact ih (h.step undisturbed.1) undisturbed.2

/-- What is woken does not disturb itself, nor do loads mind. -/
theorem quiet_of_wait {wait : Nat} (h : ∀ q ∈ m.parked, q.wait = wait ∨ InLoad n q.what) :
    Quiet supply n m (.release wait) where
  elsewhere := fun _ heq => nomatch heq
  cycles := fun q hq hload hne =>
    absurd (congrArg Act.release ((h q hq).resolve_right hload).symm) hne

/-- A reload that leaves the pipeline loading is quiet, and waits in its load. -/
theorem quiet_of_loading (h : Sound supply n m) (number : Nat)
    (stored : Record.isNew (m.shared.outer.pipeline n).recordId = false)
    (loading : ((step supply n m (.call number .reload)).shared.outer.pipeline n).stage =
      .loadingRecord) :
    Quiet supply n m (.call number .reload) ∧
      ∀ q ∈ (step supply n m (.call number .reload)).parked, q ∈ m.parked ∨ InLoad n q.what := by
  obtain ⟨p, _, hat, -⟩ := h.current
  rw [hat.pipeline] at stored
  simp only [Pool.step, Machine.start, Machine.record_shared] at loading ⊢
  obtain ⟨hpipeline, hwaits⟩ := reload_waits hat.toStands stored loading
  refine ⟨⟨(fun _ heq => by cases heq), fun q hq hload hne => ?_⟩, fun q hq => ?_⟩
  · simp only [Pool.step, Machine.start, Machine.record_shared, hat.pipeline]
    exact .inr hpipeline
  · rcases hrun : (Call.reload.work n).run supply.supplier number m.shared with ⟨t, a | w⟩
    · rw [hrun] at hq
      exact .inl hq
    · rw [hrun] at hq
      rcases List.mem_append.mp hq with hq | hq
      · exact .inl hq
      · rw [List.mem_singleton.mp hq]
        exact .inr (hwaits w (congrArg Prod.snd hrun))

/-- **No stale buttons behind undisturbed cycles.**  From the construction of a pipeline on, however
runs, reloads and new configurations overlap and whatever the store answers: as long as no cycle is
disturbed in its waits, a pipeline that is resolved has no error, its record is loaded, and its
buttons are those that its configurations make about its record. -/
theorem resolved_fresh {p q : Pipeline} {s : Shared Nat Session} (coherent : supply.Coherent s)
    (has : s.outer.pipelines[n]? = some p) (idle : p.stage = .idle)
    (unloaded : p.recordLoaded = false) {acts : List Act}
    (undisturbed : Undisturbed supply n { shared := s } acts)
    (hq : (after supply n { shared := s } acts).shared.outer.pipelines[n]? = some q)
    (resolved : q.stage = .resolved) :
    Fresh supply ((after supply n { shared := s } acts).shared.outer.shelf.get? q.record) q := by
  have h : Stands supply n p s := ⟨coherent, has⟩
  have sound : Sound supply n { shared := s } := by
    refine ⟨⟨p, .null, h.unloaded unloaded .null, fun hstage => ?_⟩, fun _ hq => nomatch hq⟩
    exact nomatch idle.symm.trans hstage
  obtain ⟨q', record, hat, hfresh⟩ := (sound.after undisturbed).current
  obtain rfl : q' = q := Option.some.inj (hat.has.symm.trans hq)
  have fresh := hfresh resolved
  rw [(hat.texts fresh.loaded).get?]
  exact fresh

/-- A contact whose button names the account that is looked up; answers are held back. -/
def contactPool : Pool :=
  { shared := { outer :=
      { store :=
          { fixed := [("contact:c1", .map [(Lookup.idKey "owner", .text "a1"),
              (Lookup.entityKey "owner", .text "account")]),
              ("account:a1", .map [("name", .text "Acme")])]
            manual := true }
        pipelines := [{ entity := "contact", recordId := some "c1",
                        configs := [{ label := .text "\x7bowner.name\x7d" }] }] } } }

/-- A cycle waits for the account, and before it is there a reload begins. -/
def crossing : List Act :=
  [.call 0 .run, .release 1, .call 1 .reload, .release 2]

/-- After the first acts of it. -/
def crossed (k : Nat) : Pool :=
  after (.anything 1 (.int 1)) 0 contactPool (crossing.take k)

theorem crossing_undisturbed : Undisturbed (.anything 1 (.int 1)) 0 contactPool crossing := by
  have coherent : Supply.Coherent (.anything 1 (.int 1)) (crossed 0).shared :=
    .of_empty (fun _ _ => trivial) fun _ => rfl
  have sound : Sound (.anything 1 (.int 1)) 0 (crossed 0) :=
    ⟨⟨_, .null, Stands.unloaded ⟨coherent, rfl⟩ rfl .null, fun h => nomatch h⟩,
      fun _ hq => nomatch hq⟩
  have begins : Quiet (.anything 1 (.int 1)) 0 (crossed 0) (.call 0 .run) :=
    ⟨(fun _ heq => nomatch heq), fun _ hq => nomatch hq⟩
  have loading : ∀ q ∈ (crossed 1).parked, q.wait = 1 := by decide +kernel
  have cycles : Quiet (.anything 1 (.int 1)) 0 (crossed 1) (.release 1) :=
    quiet_of_wait fun q hq => .inl (loading q hq)
  have sound : Sound (.anything 1 (.int 1)) 0 (crossed 2) := (sound.step begins).step cycles
  obtain ⟨reloads, waits⟩ := quiet_of_loading sound 1 (by decide +kernel) (by decide +kernel)
  have cycling : ∀ q ∈ (crossed 2).parked, q.wait = 2 := by decide +kernel
  have ends : Quiet (.anything 1 (.int 1)) 0 (crossed 3) (.release 2) :=
    quiet_of_wait fun q hq => (waits q hq).imp_left (cycling q)
  exact ⟨begins, cycles, reloads, ends, trivial⟩

theorem crossing_fresh : ∃ q, (crossed 4).shared.outer.pipelines[0]? = some q ∧
    q.stage = .resolved ∧ q.buttons.map (·.config.label.text?) = [some "Acme"] ∧
    Fresh (.anything 1 (.int 1)) ((crossed 4).shared.outer.shelf.get? q.record) q := by
  have coherent : Supply.Coherent (.anything 1 (.int 1)) contactPool.shared :=
    .of_empty (fun _ _ => trivial) fun _ => rfl
  have shown : (crossed 4).shared.outer.pipelines[0]?.map
      (fun q => (q.stage, q.buttons.map (·.config.label.text?))) =
        some (.resolved, [some "Acme"]) := by decide +kernel
  obtain ⟨q, hq, hshown⟩ := Option.map_eq_some_iff.mp shown
  obtain ⟨hstage, hlabels⟩ := Prod.mk.inj hshown
  exact ⟨q, hq, hstage, hlabels, resolved_fresh coherent rfl rfl rfl crossing_undisturbed hq hstage⟩

end Pool

end Pipeline

end Toolbar
