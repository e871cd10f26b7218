/-
# `Toolbar.Proofs.Pipeline.TearDown` — when a form that is taken down stays so

Calls, publications and teardowns of a session overlap wherever they wait.  A pipeline that is taken
down is `Down`: it is idle, its scope is empty, and it is told of nothing any more.  It stays so
whatever happens elsewhere, if those who wait leave it alone (`Down.after`).  But who waits in a call
of the pipeline, or on the way to one, brings it back when its wait is over (`Formed.stirs`).  As
nobody who waits is in between, a teardown is final exactly when those who wait then leave the pipeline
alone (`tearDown_final`).
-/
import Toolbar.Proofs.Pipeline.Rousing

namespace Toolbar

/-! ## Waits -/

section Waits

variable {α : Type} {server : Server} {number left : Nat} {f : Fetch} {s t : Shared Nat Session}

/-- Where a wait stands between what is left alone and what is roused. -/
structure Wait.Fair (n : Nat) (p : Pipeline) (w : Wait Nat StoreFault Session α) : Prop where
  settles : Settles n p w.next
  next : ∀ reply, (w.next reply).Fair n p

theorem Task.Fair.run {n : Nat} {p : Pipeline} {sup : Supplier Nat StoreFault Session} {t : Work α}
    (h : t.Fair n p) {w : Wait Nat StoreFault Session α}
    (hw : (t.run sup number s).2 = .parked w) : w.Fair n p := by
  induction t generalizing s with
  | done a => cases hw
  | look next ih => exact ih s (h s) hw
  | change g next ih => exact ih h hw
  | move m next ih => exact ih _ (h _) hw
  | fetch scope entity id next ih =>
      simp only [Task.run] at hw
      split at hw
      next t reply _ => exact ih reply (h.2 reply) hw
      next t phase _ =>
        cases hw
        exact ⟨h.1, h.2⟩
  | ask request next ih =>
      simp only [Task.run] at hw
      split at hw
      next outer reply _ => exact ih reply (h.2 reply) hw
      next outer _ =>
        cases hw
        exact ⟨h.1, h.2⟩

/-- Work has come to a wait of a number of its own, or to its end. -/
structure Arrives (s : Shared Nat Session)
    (r : Shared Nat Session × Progress Nat StoreFault Session α) : Prop where
  waits : s.waits ≤ r.1.waits
  later : ∀ w, r.2 = .parked w → s.waits < r.1.waits

theorem Arrives.behind {r : Shared Nat Session × Progress Nat StoreFault Session α}
    (waits : s.waits ≤ t.waits) (h : Arrives t r) : Arrives s r where
  waits := Nat.le_trans waits h.waits
  later := fun w hw => Nat.lt_of_le_of_lt waits (h.later w hw)

theorem Fetch.Comes.waits {sup : Supplier Nat StoreFault Session}
    {r : Shared Nat Session × Fetch.Turn Nat StoreFault} (h : f.Comes sup left s r) :
    s.waits ≤ r.1.waits ∧ ∀ phase, r.2 = .waiting phase → s.waits < r.1.waits := by
  induction h with
  | hit => exact ⟨Nat.le_refl _, nofun⟩
  | passed _ _ ih => exact ih
  | paused => exact ⟨Nat.le_succ _, fun _ _ => Nat.lt_succ_self _⟩
  | replied => exact ⟨Nat.le_refl _, nofun⟩
  | asked => exact ⟨Nat.le_succ _, fun _ _ => Nat.lt_succ_self _⟩

/-- How the first turn of a fetch leaves the session. -/
theorem Fetch.start_quiet (f : Fetch) (scope : Option Nat) (s : Shared Nat Session)
    {r : Shared Nat Session × Fetch.Turn Nat StoreFault}
    (turn : f.start server.supplier (s.touch scope f.key) = r) :
    s.outer.Quiet r.1.outer ∧ s.waits ≤ r.1.waits ∧
      ∀ phase, r.2 = .waiting phase → s.waits < r.1.waits := by
  have comes := Fetch.proceed_comes server.supplier f 0 server.supplier.attempts
    (s.touch scope f.key)
  have quiet := comes.quiet.1
  have waits := comes.waits
  have touched : (s.touch scope f.key).outer = s.outer ∧ (s.touch scope f.key).waits = s.waits := by
    cases scope <;> exact ⟨rfl, rfl⟩
  rw [touched.1] at quiet
  rw [touched.2] at waits
  exact turn ▸ ⟨quiet, waits⟩

theorem Task.arrives (t : Work α) (s : Shared Nat Session) :
    Arrives s (t.run server.supplier number s) := by
  induction t generalizing s with
  | done a => exact ⟨Nat.le_refl _, nofun⟩
  | look next ih => exact ih s s
  | change g next ih =>
      exact .behind (t := { s with outer := g s.outer }) (Nat.le_refl _) (ih _)
  | move m next ih => exact (ih _ _).behind (Nat.le_of_eq (m.apply_waits s).symm)
  | fetch scope entity id next ih =>
      simp only [Task.run]
      split
      next t reply turn =>
        exact (ih reply t).behind (Fetch.start_quiet ⟨number, entity, id⟩ scope s turn).2.1
      next t phase turn =>
        obtain ⟨-, waits, later⟩ := Fetch.start_quiet ⟨number, entity, id⟩ scope s turn
        exact ⟨waits, fun _ _ => later phase rfl⟩
  | ask request next ih =>
      simp only [Task.run]
      split
      next outer reply _ =>
        exact .behind (t := { s with outer }) (Nat.le_refl _) (ih reply _)
      next outer _ => exact ⟨Nat.le_succ _, fun _ _ => Nat.lt_succ_self _⟩

/-- How often who waits may still pause, this pause counted. -/
def Wait.pauses : Wait Nat StoreFault Session α → Nat
  | .fetching _ phase _ => phase.pauses
  | .asking _ _ => 0

/-- What is woken goes on with a reply, or pauses once more. -/
inductive Wait.Wakes (server : Server) (number : Nat) (w : Wait Nat StoreFault Session α)
    (s : Shared Nat Session) : Shared Nat Session × Progress Nat StoreFault Session α → Prop
  | on {t : Shared Nat Session} (reply : Except StoreFault (Option Nat)) : s.outer.Quiet t.outer →
      s.waits ≤ t.waits → Wakes server number w s ((w.next reply).run server.supplier number t)
  | again {t : Shared Nat Session} {w' : Wait Nat StoreFault Session α} : s.outer.Quiet t.outer →
      s.waits < t.waits → w'.next = w.next → w'.pauses < w.pauses →
      Wakes server number w s (t, .parked w')

theorem Server.resume_wakes (server : Server) (q : Parked Nat StoreFault Session α)
    (s : Shared Nat Session) : q.what.Wakes server q.task s (server.resume q s) := by
  have answered := fun request => server.answer_quiet request s.outer
  rcases q with ⟨wait, number, ⟨f, phase, next⟩ | ⟨request, next⟩⟩
  · cases phase with
    | loading mark =>
        exact .on (t := f.finish mark (server.answer f.request s.outer).2
          { s with outer := (server.answer f.request s.outer).1 }) _ (answered _) (Nat.le_refl _)
    | pausing attempt left =>
        have comes := Fetch.proceed_comes server.supplier f attempt left s
        simp only [Server.resume, Machine.resume]
        split
        next t reply turn =>
          rw [turn] at comes
          exact .on reply comes.quiet.1 comes.waits.1
        next t phase turn =>
          rw [turn] at comes
          exact .again comes.quiet.1 (comes.waits.2 phase rfl) rfl
            (Nat.lt_succ_of_le (comes.pauses_le rfl))
  · exact .on (t := { s with outer := (server.answer request s.outer).1 }) _ (answered _)
      (Nat.le_refl _)

end Waits

namespace Pipeline

/-! ## A session at work -/

/-- The work that is under way in a session. -/
abbrev Crowd := Machine Nat StoreFault Session Unit

namespace Crowd

/-- What happens next in a session. -/
inductive Act where
  | op (number : Nat) (o : Op)
  | release (wait : Nat)
  | cancel (task : Nat)
  /-- The cache is used past the pipelines. -/
  | move (m : Move Nat)
  /-- The store changes, or a record on the shelf. -/
  | store (store : Store) (shelf : Shelf)

/-- What happens elsewhere than to a pipeline. -/
def Act.Elsewhere (n : Nat) : Act → Prop
  | op _ o => o.Elsewhere n
  | move m => m ≠ .leave n
  | release _ | cancel _ | store _ _ => True

section

variable (server : Server)

/-- After an act. -/
def step (m : Crowd) : Act → Crowd
  | .op number o => (m.start server.supplier number o.work).1
  | .release wait => (m.release server.supplier server.answer wait).1
  | .cancel task => (m.cancel task).1
  | .move mv => { m with shared := (mv.apply m.shared).1 }
  | .store store shelf =>
      { m with shared := { m.shared with outer := { m.shared.outer with store, shelf } } }

/-- After acts. -/
def after (m : Crowd) (acts : List Act) : Crowd :=
  acts.foldl (step server) m

end

/-- What all sessions at work keep: subscriptions are in order, and everybody waits under a number of
its own. -/
structure Formed (m : Crowd) : Prop where
  registered : Registered m.shared.outer
  registers : ∀ q ∈ m.parked, q.what.Obeys registering
  fair : ∀ q ∈ m.parked, ∀ n p, q.what.Fair n p
  wait_le : ∀ q ∈ m.parked, q.wait ≤ m.shared.waits
  wait_nodup : (m.parked.map (·.wait)).Nodup

variable {server : Server} {n : Nat} {p : Pipeline} {m : Crowd}

theorem Formed.initial {s : Shared Nat Session} (registered : Registered s.outer) :
    Formed ({ shared := s } : Crowd) where
  registered := registered
  registers := nofun
  fair := nofun
  wait_le := nofun
  wait_nodup := List.nodup_nil

/-- Some of those who wait go away, and the rest of the state moves on. -/
theorem Formed.shrink (h : Formed m) {s : Shared Nat Session}
    {ps : List (Parked Nat StoreFault Session Unit)} (sub : ps.Sublist m.parked)
    (registered : Registered s.outer) (waits : m.shared.waits ≤ s.waits) :
    Formed ⟨s, ps⟩ where
  registered := registered
  registers := fun q hq => h.registers q (sub.subset hq)
  fair := fun q hq => h.fair q (sub.subset hq)
  wait_le := fun q hq => Nat.le_trans (h.wait_le q (sub.subset hq)) waits
  wait_nodup := h.wait_nodup.sublist (sub.map _)

/-- Work has gone on while those in `ps` wait. -/
theorem Formed.record (h : Formed m) {ps : List (Parked Nat StoreFault Session Unit)}
    (sub : ps.Sublist m.parked) {r : Shared Nat Session × Progress Nat StoreFault Session Unit}
    (arrives : Arrives m.shared r) (reaches : registering.Reaches m.shared r)
    (fair : ∀ w, r.2 = .parked w → ∀ n p, w.Fair n p) (number : Nat) :
    Formed (Machine.record ⟨m.shared, ps⟩ number r).1 := by
  have old : Formed ⟨r.1, ps⟩ := h.shrink sub (reaches.between.may h.registered) arrives.waits
  refine ⟨?_, fun q hq => ?_, fun q hq => ?_, fun q hq => ?_, ?_⟩
  · rw [Machine.record_shared]
    exact old.registered
  · obtain hq | ⟨hw, -, -⟩ := Machine.mem_record hq
    · exact old.registers q hq
    · exact reaches.waits _ hw
  · obtain hq | ⟨hw, -, -⟩ := Machine.mem_record hq
    · exact old.fair q hq
    · exact fair _ hw
  · rw [Machine.record_shared]
    obtain hq | ⟨-, wait, -⟩ := Machine.mem_record hq
    · exact old.wait_le q hq
    · exact Nat.le_of_eq wait
  · rcases r with ⟨s, a | w⟩
    · exact old.wait_nodup
    · have later := arrives.later w rfl
      simp only [Machine.record, List.map_append, List.map_cons, List.map_nil]
      refine List.nodup_append.mpr ⟨old.wait_nodup, List.nodup_singleton _, ?_⟩
      intro a ha b hb
      obtain ⟨q, hq, rfl⟩ := List.mem_map.mp ha
      rw [List.mem_singleton.mp hb]
      exact Nat.ne_of_lt (Nat.lt_of_le_of_lt (h.wait_le q (sub.subset hq)) later)

/-- What is woken goes on. -/
theorem Formed.resumed (h : Formed m) {q : Parked Nat StoreFault Session Unit}
    (hq : q ∈ m.parked) {ps : List (Parked Nat StoreFault Session Unit)}
    (sub : ps.Sublist m.parked) :
    Formed (Machine.record ⟨m.shared, ps⟩ q.task (server.resume q m.shared)).1 := by
  have reaches : registering.Reaches m.shared (server.resume q m.shared) :=
    (h.registers q hq).wake lasting_registering trivial
  have fair := h.fair q hq
  have wakes := server.resume_wakes q m.shared
  generalize server.resume q m.shared = r at reaches wakes ⊢
  cases wakes with
  | on reply quiet waits =>
      refine h.record sub ((Task.arrives _ _).behind waits) reaches ?_ q.task
      exact fun w hw n p => ((fair n p).next reply).run hw
  | again quiet waits next pauses =>
      refine h.record sub ⟨Nat.le_of_lt waits, fun _ _ => waits⟩ reaches (fun w hw n p => ?_) q.task
      cases hw
      exact ⟨next ▸ (fair n p).settles, next ▸ (fair n p).next⟩

theorem Formed.step (h : Formed m) (act : Act) : Formed (step server m act) := by
  cases act with
  | op number o =>
      refine h.record (.refl _) (Task.arrives _ _) ?_ (fun w hw n p => (fair_op o).run hw) number
      exact (obeys_registering o).run lasting_registering trivial
  | release wait =>
      simp only [Crowd.step, Machine.release]
      split
      next => exact h
      next q hq => exact h.resumed (List.mem_of_find?_eq_some hq) List.filter_sublist
  | cancel task =>
      simp only [Crowd.step, Machine.cancel]
      split
      next => exact h
      next q _ =>
        obtain ⟨outer, -, waits⟩ := Machine.giveUp_quiet q m.shared
        refine h.shrink List.filter_sublist ?_ (Nat.le_of_eq waits.symm)
        rw [outer]
        exact h.registered
  | move mv =>
      refine h.shrink (.refl _) ?_ (Nat.le_of_eq (mv.apply_waits m.shared).symm)
      rw [mv.apply_outer]
      exact h.registered
  | store store shelf =>
      have quiet : registering.may m.shared.outer { m.shared.outer with store, shelf } :=
        lasting_registering.quiet _ _ ⟨rfl, rfl, rfl, rfl⟩
      exact h.shrink (.refl _) (quiet h.registered) (Nat.le_refl _)

theorem Formed.after (h : Formed m) (acts : List Act) : Formed (after server m acts) := by
  induction acts generalizing m with
  | nil => exact h
  | cons act acts ih => exact ih (h.step act)

/-! ## Acts that keep to rules -/

/-- What an act does keeps to rules. -/
def Act.Obeys (R : Rules) : Act → Prop
  | op _ o => o.work.Obeys R
  | move m => ∀ scope, m = .leave scope → R.uses scope
  | release _ | cancel _ | store _ _ => True

/-- A session at work is such as rules say, and those who wait keep to them. -/
structure Bound (R : Rules) (m : Crowd) : Prop where
  inv : R.inv m.shared.outer
  waits : ∀ q ∈ m.parked, q.what.Obeys R

/-- A session at work has moved on as rules say. -/
structure Abided (R : Rules) (m m' : Crowd) : Prop where
  between : R.Between m.shared m'.shared
  waits : ∀ q ∈ m'.parked, q.what.Obeys R

section Abiding

variable {R : Rules} {m' : Crowd} {ps : List (Parked Nat StoreFault Session Unit)}

theorem Abided.bound (h : Abided R m m') (lasting : R.Lasting) (inv : R.inv m.shared.outer) :
    Bound R m' :=
  ⟨h.between.inv lasting inv, h.waits⟩

/-- The state has moved on, and some of those who wait have gone away. -/
theorem Bound.moved (h : Bound R m) {s : Shared Nat Session} (between : R.Between m.shared s)
    (sub : ps.Sublist m.parked) : Abided R m ⟨s, ps⟩ :=
  ⟨between, fun q hq => h.waits q (sub.subset hq)⟩

/-- Work has gone on while those in `ps` wait. -/
theorem Bound.record (h : Bound R m) (sub : ps.Sublist m.parked)
    {r : Shared Nat Session × Progress Nat StoreFault Session Unit} (reaches : R.Reaches m.shared r)
    (number : Nat) : Abided R m (Machine.record ⟨m.shared, ps⟩ number r).1 where
  between := by
    rw [Machine.record_shared]
    exact reaches.between
  waits := fun q hq => by
    obtain hq | ⟨hw, -, -⟩ := Machine.mem_record hq
    · exact h.waits q (sub.subset hq)
    · exact reaches.waits _ hw

theorem Bound.step (h : Bound R m) (lasting : R.Lasting) {act : Act} (obeys : act.Obeys R) :
    Abided R m (step server m act) := by
  have still : Abided R m m := ⟨.quiet lasting (.refl _) rfl, h.waits⟩
  cases act with
  | op number o => exact h.record (.refl _) (Task.Obeys.run lasting obeys h.inv) number
  | release wait =>
      simp only [Crowd.step, Machine.release]
      split
      next => exact still
      next q hq =>
        have waits := h.waits q (List.mem_of_find?_eq_some hq)
        exact h.record List.filter_sublist (waits.wake lasting h.inv) q.task
  | cancel task =>
      simp only [Crowd.step, Machine.cancel]
      split
      next => exact still
      next q _ =>
        obtain ⟨outer, scopes, -⟩ := Machine.giveUp_quiet q m.shared
        refine h.moved (.quiet lasting ?_ scopes) List.filter_sublist
        rw [outer]
        exact .refl _
  | move mv => exact h.moved (.move lasting obeys) (.refl _)
  | store store shelf =>
      exact h.moved (s := { m.shared with outer := { m.shared.outer with store, shelf } })
        (.quiet lasting ⟨rfl, rfl, rfl, rfl⟩ rfl) (.refl _)

theorem Bound.after (h : Bound R m) (lasting : R.Lasting) {acts : List Act}
    (obeys : ∀ act ∈ acts, act.Obeys R) : Abided R m (after server m acts) := by
  induction acts generalizing m with
  | nil => exact ⟨.quiet lasting (.refl _) rfl, h.waits⟩
  | cons act acts ih =>
      have first : Abided R m (Crowd.step server m act) :=
        h.step lasting (obeys act List.mem_cons_self)
      have rest := ih (first.bound lasting h.inv) fun act' hact =>
        obeys act' (List.mem_cons_of_mem _ hact)
      exact ⟨first.between.trans lasting rest.between, rest.waits⟩

end Abiding

/-! ## After a teardown -/

/-- A pipeline has been taken down, and nobody who waits is to touch it. -/
structure Down (n : Nat) (p : Pipeline) (m : Crowd) : Prop where
  pipeline : m.shared.outer.pipelines[n]? = some p.tornDown
  keys : m.shared.scopes.keys n = []
  deaf : ∀ name, .pipeline n ∉ m.shared.outer.bus.listeners name
  spares : ∀ q ∈ m.parked, q.what.Obeys (sparing n p)

theorem Down.bound (h : Down n p m) : Bound (sparing n p) m where
  inv := ⟨⟨p.tornDown, h.pipeline, rfl, rfl⟩, h.deaf⟩
  waits := h.spares

/-- What leaves the pipeline alone leaves it down. -/
theorem Down.abided (h : Down n p m) {m' : Crowd} (abided : Abided (sparing n p) m m') :
    Down n p m' where
  pipeline := abided.between.may.pipeline.trans h.pipeline
  keys := (abided.between.keys n fun hn => hn rfl).trans h.keys
  deaf := fun name hname => h.deaf name (abided.between.may.deaf name hname)
  spares := abided.waits

theorem Act.Elsewhere.obeys {act : Act} (elsewhere : act.Elsewhere n) :
    act.Obeys (sparing n p) := by
  cases act with
  | op number o => exact obeys_op elsewhere
  | move mv =>
      rintro scope rfl rfl
      exact elsewhere rfl
  | release | cancel | store => trivial

theorem Down.after (h : Down n p m) {acts : List Act} (elsewhere : ∀ act ∈ acts, act.Elsewhere n) :
    Down n p (after server m acts) :=
  h.abided (h.bound.after (lasting_sparing n p) fun act hact => (elsewhere act hact).obeys)

/-- A teardown takes a pipeline down if nobody who waits is to touch it. -/
theorem Formed.tearDown (h : Formed m) (has : m.shared.outer.pipelines[n]? = some p)
    (spares : ∀ q ∈ m.parked, q.what.Obeys (sparing n p)) (number : Nat) :
    Down n p (Crowd.step server m (.op number (.deed n .tearDown))) where
  pipeline := by
    show (m.shared.outer.tearDownPipeline n).pipelines[n]? = some p.tornDown
    rw [pipelines_tearDown]
    exact Session.getElem?_onPipeline has tornDown
  keys := (Scopes.keys_set _ _ _ _).trans (if_pos rfl)
  deaf := h.registered.deaf n
  spares := spares

/-! ## Teardowns that are undone -/

/-- As the waits of those who wait end, a pipeline comes to another stage than idle. -/
def Stirs (server : Server) (n : Nat) (m : Crowd) : Prop :=
  ∃ waits : List Nat, ∃ q,
    (Crowd.after server m (waits.map .release)).shared.outer.pipelines[n]? = some q ∧
      q.stage ≠ .idle

theorem Stirs.released (wait : Nat) (h : Stirs server n (Crowd.step server m (.release wait))) :
    Stirs server n m := by
  obtain ⟨waits, stirs⟩ := h
  exact ⟨wait :: waits, stirs⟩

/-- Who came last to a wait is found under its number. -/
theorem release_last {s : Shared Nat Session} {ps : List (Parked Nat StoreFault Session Unit)}
    (older : ∀ q ∈ ps, q.wait < s.waits) (number : Nat) (w : Wait Nat StoreFault Session Unit) :
    Crowd.step server ⟨s, ps ++ [⟨s.waits, number, w⟩]⟩ (.release s.waits) =
      (Machine.record ⟨s, ps⟩ number (server.resume ⟨s.waits, number, w⟩ s)).1 := by
  have none : ps.find? (·.wait == s.waits) = none :=
    List.find?_eq_none.mpr fun q hq => by simpa using Nat.ne_of_lt (older q hq)
  have all : ps.filter (·.wait != s.waits) = ps :=
    List.filter_eq_self.mpr fun q hq => by simpa using Nat.ne_of_lt (older q hq)
  simp [Crowd.step, Machine.release, Server.resume, List.find?_append, none, List.filter_append, all]

section Stirring

variable {ps : List (Parked Nat StoreFault Session Unit)} {s : Shared Nat Session}

/-- What follows a wait stirs a pipeline, whatever the reply. -/
def StirsBehind (server : Server) (n : Nat) (ps : List (Parked Nat StoreFault Session Unit))
    (number : Nat) (next : Except StoreFault (Option Nat) → Work Unit) (s : Shared Nat Session) :
    Prop :=
  ∀ reply before t, s.outer.Quiet t.outer → s.waits ≤ t.waits →
    Stirs server n (Machine.record ⟨before, ps⟩ number ((next reply).run server.supplier number t)).1

/-- The pauses of who is woken come to an end, so it stirs the pipeline if what follows does. -/
theorem stirs_of_resume {q : Parked Nat StoreFault Session Unit}
    (behind : StirsBehind server n ps q.task q.what.next s) (older : ∀ q' ∈ ps, q'.wait ≤ s.waits)
    (before : Shared Nat Session) :
    Stirs server n (Machine.record ⟨before, ps⟩ q.task (server.resume q s)).1 := by
  induction hk : q.what.pauses using Nat.strongRecOn generalizing q s before with
  | _ k ih =>
      have wakes := server.resume_wakes q s
      generalize server.resume q s = r at wakes ⊢
      cases wakes with
      | on reply quiet waits => exact behind reply before _ quiet waits
      | @again t w quiet waits next pauses =>
          have older : ∀ q' ∈ ps, q'.wait < t.waits := fun q' hq' =>
            Nat.lt_of_le_of_lt (older q' hq') waits
          refine .released t.waits ?_
          simp only [Machine.record]
          rw [release_last older]
          refine ih w.pauses (hk ▸ pauses) (q := ⟨t.waits, q.task, w⟩) ?_
            (fun q' hq' => Nat.le_of_lt (older q' hq')) t rfl
          intro reply before u hu hwaits
          rw [next]
          exact behind reply before u (quiet.trans hu) (Nat.le_trans (Nat.le_of_lt waits) hwaits)

theorem stirs_of_wait {number : Nat} {w : Wait Nat StoreFault Session Unit}
    (behind : StirsBehind server n ps number w.next s) (older : ∀ q ∈ ps, q.wait < s.waits) :
    Stirs server n ⟨s, ps ++ [⟨s.waits, number, w⟩]⟩ := by
  refine .released s.waits ?_
  rw [release_last older]
  exact stirs_of_resume (q := ⟨s.waits, number, w⟩) behind (fun q hq => Nat.le_of_lt (older q hq)) s

/-- Work that rouses a pipeline stirs it. -/
theorem stirs_of_rouses {t : Work Unit} {q : Pipeline} (h : t.Rouses n q)
    (has : s.outer.pipelines[n]? = some q) (older : ∀ q ∈ ps, q.wait ≤ s.waits)
    (before : Shared Nat Session) (number : Nat) :
    Stirs server n (Machine.record ⟨before, ps⟩ number (t.run server.supplier number s)).1 := by
  induction t generalizing q s before with
  | done a => exact ⟨[], q, has, h⟩
  | look next ih => exact ih s (h s has) has older before
  | change g next ih =>
      obtain ⟨q', hq', h⟩ := h s.outer has
      exact ih h (s := { s with outer := g s.outer }) hq' older before
  | move mv next ih =>
      refine ih _ (h _) ?_ ?_ before
      · rw [mv.apply_outer]
        exact has
      · rw [mv.apply_waits]
        exact older
  | fetch scope entity id next ih =>
      simp only [Task.run]
      split
      next t reply turn =>
        obtain ⟨quiet, waits, -⟩ := Fetch.start_quiet ⟨number, entity, id⟩ scope s turn
        refine ih reply (h reply) ?_ (fun p hp => Nat.le_trans (older p hp) waits) before
        rw [quiet.pipelines]
        exact has
      next t phase turn =>
        obtain ⟨quiet, -, later⟩ := Fetch.start_quiet ⟨number, entity, id⟩ scope s turn
        have older : ∀ p ∈ ps, p.wait < t.waits := fun p hp =>
          Nat.lt_of_le_of_lt (older p hp) (later phase rfl)
        refine stirs_of_wait (fun reply before u hu waits => ?_) older
        refine ih reply (h reply) ?_ (fun p hp => Nat.le_trans (Nat.le_of_lt (older p hp)) waits) _
        rw [hu.pipelines, quiet.pipelines]
        exact has
  | ask request next ih =>
      have quiet := server.ask_quiet number (s.waits + 1) request s.outer
      simp only [Task.run]
      split
      next outer reply asked =>
        rw [asked] at quiet
        refine ih reply (h reply) (s := { s with outer }) ?_ older before
        exact (congrArg (·[n]?) quiet.pipelines).trans has
      next outer asked =>
        rw [asked] at quiet
        have older : ∀ p ∈ ps, p.wait < s.waits + 1 := fun p hp => Nat.lt_succ_of_le (older p hp)
        refine stirs_of_wait (s := { s with outer, waits := s.waits + 1 })
          (fun reply before u hu waits => ?_) older
        refine ih reply (h reply) ?_ (fun p hp => Nat.le_trans (Nat.le_of_lt (older p hp)) waits) _
        rw [hu.pipelines]
        exact (congrArg (·[n]?) quiet.pipelines).trans has

end Stirring

theorem Formed.stirs (h : Formed m) {q : Parked Nat StoreFault Session Unit} (hq : q ∈ m.parked)
    (has : m.shared.outer.pipelines[n]? = some p)
    (rouses : ∀ reply, (q.what.next reply).Rouses n p) : Stirs server n m := by
  refine .released q.wait ?_
  have found : m.parked.find? (·.wait == q.wait) = some q := Keyed.find?_of_nodup h.wait_nodup hq
  have older : ∀ q' ∈ m.parked.filter (·.wait != q.wait), q'.wait ≤ m.shared.waits :=
    fun q' hq' => h.wait_le q' (List.mem_of_mem_filter hq')
  simp only [Crowd.step, Machine.release, found]
  refine stirs_of_resume (fun reply before t quiet waits => ?_) older _
  refine stirs_of_rouses (rouses reply) ?_ (fun q' hq' => Nat.le_trans (older q' hq') waits) _ _
  rw [quiet.pipelines]
  exact has

/-- **A teardown is final when nobody who waits is to touch the pipeline, and only then.**  Sessions
begin with no pipeline that listens; then operations of all pipelines, saves and other uses of the
cache overlap in any way.  When a pipeline is taken down while those who wait spare it, then whatever
happens elsewhere from then on it is idle, holds no key, is told of nothing and is spared by all who
wait.  When one of them does not spare it, then the answers to those who wait bring it to another stage
than idle. -/
theorem tearDown_final {s : Shared Nat Session}
    (fresh : ∀ n name, .pipeline n ∉ s.outer.bus.listeners name) (before : List Act) (number : Nat)
    (has : (after server { shared := s } before).shared.outer.pipelines[n]? = some p) :
    let m := Crowd.after server { shared := s } before
    let down := Crowd.step server m (.op number (.deed n .tearDown))
    ((∀ q ∈ m.parked, q.what.Obeys (sparing n p)) →
      ∀ acts : List Act, (∀ act ∈ acts, act.Elsewhere n) →
        Down n p (Crowd.after server down acts)) ∧
    ((∃ q ∈ m.parked, ¬ q.what.Obeys (sparing n p)) → Stirs server n down) := by
  have formed : Formed (Crowd.after server { shared := s } before) :=
    (Formed.initial (.of_fresh fresh)).after before
  have down : Formed (Crowd.step server _ (.op number (.deed n .tearDown))) :=
    formed.step _
  refine ⟨fun spares acts elsewhere => ?_, fun ⟨q, hq, touches⟩ => ?_⟩
  · exact (formed.tearDown has spares number).after elsewhere
  · have rouses := (formed.fair q hq n p).settles.resolve_left touches
    refine down.stirs hq (p := p.tornDown) ?_ fun reply => rouses reply p.tornDown ⟨rfl, rfl⟩
    show (Session.tearDownPipeline n _).pipelines[n]? = some p.tornDown
    rw [pipelines_tearDown]
    exact Session.getElem?_onPipeline has tornDown

/-- A session with the forms of a contact and of its account, the store of which holds its answers
back. -/
def twoForms : Crowd :=
  { shared := { outer := { store := { owned "Acme" with manual := true } } } }

/-- The form of the account loads and is shown, and then that of the contact loads. -/
def showing : List Act :=
  [.op 0 (.construct nameForm), .op 1 (.construct ownerForm), .op 2 (.deed 0 (.call .run)),
    .release 1, .op 3 (.deed 1 (.call .run))]

/-- What serves them. -/
def tended : Server :=
  .ofSession 5 (.int 1)

/-- After the first acts of it. -/
def shownTo (k : Nat) : Crowd :=
  after tended twoForms (showing.take k)

/-- The form of the account is taken down then. -/
def takenDown (k : Nat) : Crowd :=
  step tended (shownTo k) (.op 4 (.deed 0 .tearDown))

/-- Who waits then is the load of the other form. -/
theorem showing_spares : ∀ q ∈ (shownTo 5).parked, q.what.Obeys (sparing 0 p) := by
  intro q hq
  obtain hq | ⟨waits, -, -⟩ := Machine.mem_record (m := shownTo 4) hq
  · have nobody : (shownTo 4).parked.length = 0 := by decide +kernel
    rw [List.length_eq_zero_iff.mp nobody] at hq
    cases hq
  · have contact : (Op.deed 1 (.call .run)).work.Obeys (aside 0) :=
      .bind (obeys_aside (obeys_call 1 .run) nofun) fun _ => trivial
    have reaches : (aside 0).Reaches (shownTo 4).shared ((Op.deed 1 (.call .run)).work.run
        tended.supplier 3 (shownTo 4).shared) :=
      contact.run (lasting_aside 0) trivial
    exact fun reply => sparing_of_aside (reaches.waits _ waits reply)

theorem shown_final :
    (∃ p, (shownTo 5).shared.outer.pipelines[0]? = some p ∧ p.stage = .resolved ∧
      ∀ acts : List Act, (∀ act ∈ acts, act.Elsewhere 0) →
        Down 0 p (after tended (takenDown 5) acts)) ∧
    Stirs tended 0 (takenDown 3) := by
  have fresh : ∀ n name, Listener.pipeline n ∉ twoForms.shared.outer.bus.listeners name :=
    fun n name => List.not_mem_nil
  refine ⟨?_, ?_⟩
  · have shown : (shownTo 5).shared.outer.pipelines[0]?.map (·.stage) = some .resolved := by
      decide +kernel
    obtain ⟨p, has, resolved⟩ := Option.map_eq_some_iff.mp shown
    exact ⟨p, has, resolved, (tearDown_final fresh (showing.take 5) 4 has).1 showing_spares⟩
  · have loading : (shownTo 3).shared.outer.pipelines[0]?.map (·.stage) = some .loadingRecord := by
      decide +kernel
    obtain ⟨p, has, -⟩ := Option.map_eq_some_iff.mp loading
    have final := tearDown_final fresh (showing.take 3) 4 has
    refine final.2 (Classical.byContradiction fun nobody => ?_)
    -- If nobody who waits touched the form, it would stay idle, but its own load brings it back.
    have spares : ∀ q ∈ (shownTo 3).parked, q.what.Obeys (sparing 0 p) := fun q hq =>
      Classical.byContradiction fun touches => nobody ⟨q, hq, touches⟩
    have elsewhere : ∀ act ∈ [Act.release 1], act.Elsewhere 0 := fun act hact => by
      rw [List.mem_singleton.mp hact]
      trivial
    have idle : (after tended (takenDown 3) [.release 1]).shared.outer.pipelines[0]? =
        some p.tornDown :=
      (final.1 spares [.release 1] elsewhere).pipeline
    have resolved : (after tended (takenDown 3) [.release 1]).shared.outer.pipelines[0]?.map
        (·.stage) = some .resolved := by
      decide +kernel
    rw [idle] at resolved
    cases resolved

end Crowd

end Pipeline

end Toolbar
