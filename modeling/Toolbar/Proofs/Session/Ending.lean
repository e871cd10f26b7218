/-
# `Toolbar.Proofs.Session.Ending` — work that runs to its end

Work on a pipeline ends when its waits are released, one after the other as they are parked.  What
else happens meanwhile is left open, but for the pipeline: other work goes on over the cache, the
store changes what it answers, and the pipeline itself changes as a `Drift` allows.  `Ends` says
that the work does end, and what then holds of the state and the result:

    finished    the work is done
    parked      the work waits, and however the session drifts, it ends when it is woken

It is inductive, so there are no endless waits in it.  The rules follow the shape of work: one for
work followed by work, one for a fetch, one for a resolution.
-/
import Toolbar.Proofs.Session.Supply
import Toolbar.Proofs.Session.Transparency

namespace Toolbar

/-! ## Work followed by work -/

section Bind

variable {ρ φ σ α β : Type}

/-- What a wait goes on with, followed by work on its result. -/
def Wait.bind (w : Wait ρ φ σ α) (f : α → Task ρ φ σ β) : Wait ρ φ σ β :=
  match w with
  | .fetching fe phase next => .fetching fe phase fun r => (next r).bind f
  | .asking request next => .asking request fun r => (next r).bind f

/-- What work has come to, followed by work on its result. -/
def Progress.andThen (sup : Supplier ρ φ σ) (number : Nat) (f : α → Task ρ φ σ β) :
    Shared ρ σ × Progress ρ φ σ α → Shared ρ σ × Progress ρ φ σ β
  | (s, .finished a) => (f a).run sup number s
  | (s, .parked w) => (s, .parked (w.bind f))

variable (sup : Supplier ρ φ σ) (number : Nat) (f : α → Task ρ φ σ β)

theorem Task.bind_assoc {γ : Type} (t : Task ρ φ σ α) (g : β → Task ρ φ σ γ) :
    (t.bind f).bind g = t.bind fun a => (f a).bind g := by
  induction t with
  | done a => rfl
  | look next ih => simp only [bind, ih]
  | change h next ih => simp only [bind, ih]
  | move m next ih => simp only [bind, ih]
  | fetch scope entity id next ih => simp only [bind, ih]
  | ask request next ih => simp only [bind, ih]

theorem Task.bind_done (t : Task ρ φ σ α) : t.bind .done = t := by
  induction t with
  | done a => rfl
  | look next ih => simp only [bind, ih]
  | change h next ih => simp only [bind, ih]
  | move m next ih => simp only [bind, ih]
  | fetch scope entity id next ih => simp only [bind, ih]
  | ask request next ih => simp only [bind, ih]

theorem Task.run_bind (t : Task ρ φ σ α) (s : Shared ρ σ) :
    (t.bind f).run sup number s = Progress.andThen sup number f (t.run sup number s) := by
  induction t generalizing s with
  | done a => rfl
  | look next ih => exact ih s s
  | change g next ih => exact ih _
  | move m next ih => exact ih _ _
  | fetch scope entity id next ih =>
      simp only [Task.bind, Task.run]
      split
      next t reply _ => exact ih reply t
      next t phase _ => rfl
  | ask request next ih =>
      simp only [Task.bind, Task.run]
      split
      next outer reply _ => exact ih reply _
      next outer _ => rfl

/-- Work that is woken, followed by work on its result. -/
theorem Machine.resume_bind (answer : Request → σ → σ × Except φ (Option ρ)) (w : Wait ρ φ σ α)
    (wait : Nat) (s : Shared ρ σ) :
    resume sup answer ⟨wait, number, w.bind f⟩ s =
      Progress.andThen sup number f (resume sup answer ⟨wait, number, w⟩ s) := by
  rcases w with ⟨fe, phase, next⟩ | ⟨request, next⟩
  · cases phase with
    | loading mark => exact Task.run_bind _ _ _ _ _
    | pausing attempt left =>
        simp only [Wait.bind, resume]
        split
        next t reply _ => exact Task.run_bind _ _ _ _ _
        next t phase _ => rfl
  · exact Task.run_bind _ _ _ _ _

end Bind

section Looking

variable {α : Type} (sup : Supplier Nat StoreFault Session) (number : Nat) (s : Shared Nat Session)

theorem Work.run_pipeline (n : Nat) (f : Pipeline → Work α) :
    (Work.pipeline n >>= f).run sup number s = (f (s.outer.pipeline n)).run sup number s :=
  rfl

theorem Work.run_modify (g : Session → Session) (f : Unit → Work α) :
    (Task.modify g >>= f).run sup number s =
      (f ()).run sup number { s with outer := g s.outer } :=
  rfl

end Looking

/-! ## Drifts -/

/-- What a cycle reads of a pipeline is as it was. -/
structure Pipeline.Keeps (p q : Pipeline) : Prop where
  record : q.record = p.record
  evaluated : q.evaluated = p.evaluated
  recordLoaded : q.recordLoaded = p.recordLoaded
  configs : q.configs = p.configs
  host : q.host = p.host

/-- How a pipeline may change while work on it waits. -/
structure Drift where
  May : Pipeline → Pipeline → Prop
  refl : ∀ p, May p p
  trans : ∀ {p q r}, May p q → May q r → May p r
  keeps : ∀ {p q}, May p q → p.Keeps q

/-- Nothing but the work itself changes the pipeline. -/
def Drift.still : Drift where
  May := Eq
  refl := fun _ => rfl
  trans := Eq.trans
  keeps := by
    rintro p _ rfl
    exact ⟨rfl, rfl, rfl, rfl, rfl⟩

/-- A coherent state after another, in which a pipeline has drifted. -/
structure Supply.Drifts (supply : Supply) (drift : Drift) (n : Nat) (s t : Shared Nat Session) :
    Prop where
  coherent : supply.Coherent t
  within : s.outer.shelf.Within t.outer.shelf
  pipeline : ∀ {p}, s.outer.pipelines[n]? = some p →
    ∃ q, t.outer.pipelines[n]? = some q ∧ drift.May p q

namespace Supply

section Drifting

variable {supply : Supply} {drift : Drift} {n : Nat} {s t u : Shared Nat Session}

theorem Onward.drifts (h : supply.Onward s t) : supply.Drifts drift n s t where
  coherent := h.coherent
  within := h.within
  pipeline := fun {p} hp => ⟨p, h.pipelines ▸ hp, drift.refl p⟩

theorem Drifts.trans (h : supply.Drifts drift n s t) (h' : supply.Drifts drift n t u) :
    supply.Drifts drift n s u where
  coherent := h'.coherent
  within := h.within.trans h'.within
  pipeline := fun hp => by
    obtain ⟨q, hq, hmay⟩ := h.pipeline hp
    obtain ⟨r, hr, hmay'⟩ := h'.pipeline hq
    exact ⟨r, hr, drift.trans hmay hmay'⟩

theorem Drifts.of_still (h : supply.Drifts .still n s t) : supply.Drifts drift n s t where
  coherent := h.coherent
  within := h.within
  pipeline := fun hp => by
    obtain ⟨_, hq, rfl⟩ := h.pipeline hp
    exact ⟨_, hq, drift.refl _⟩

end Drifting

variable (supply : Supply) (drift : Drift) (n number : Nat)

/-- Wakes work from its wait. -/
def wake {α : Type} (w : Wait Nat StoreFault Session α) (s : Shared Nat Session) :
    Shared Nat Session × Progress Nat StoreFault Session α :=
  Machine.resume supply.supplier supply.reply ⟨s.waits, number, w⟩ s

theorem wake_bind {α β : Type} (w : Wait Nat StoreFault Session α) (f : α → Work β)
    (s : Shared Nat Session) :
    supply.wake number (w.bind f) s =
      Progress.andThen supply.supplier number f (supply.wake number w s) :=
  Machine.resume_bind supply.supplier number f supply.reply w s.waits s

/-! ## Ends -/

/-- Work ends in states and with results of which `post` holds; where it waits `during` holds.
What was on the shelf when it began or was woken is there still. -/
inductive Ends {α : Type} (during : Shared Nat Session → Prop)
    (post : Shared Nat Session → α → Prop) :
    Shelf → Shared Nat Session × Progress Nat StoreFault Session α → Prop
  | finished {before : Shelf} {s : Shared Nat Session} {a : α} : before.Within s.outer.shelf →
      post s a → Ends during post before (s, .finished a)
  | parked {before : Shelf} {s : Shared Nat Session} {w : Wait Nat StoreFault Session α} :
      before.Within s.outer.shelf → during s →
      (∀ t, supply.Drifts drift n s t →
        Ends during post t.outer.shelf (supply.wake number w t)) →
      Ends during post before (s, .parked w)

variable {supply drift n number} {α β : Type} {during : Shared Nat Session → Prop}
  {mid : Shared Nat Session → β → Prop} {post : Shared Nat Session → α → Prop}
  {before : Shelf} {s t : Shared Nat Session}

theorem Ends.mono {post' : Shared Nat Session → α → Prop} {during' : Shared Nat Session → Prop}
    {r : Shared Nat Session × Progress Nat StoreFault Session α}
    (h : supply.Ends drift n number during post before r) (hduring : ∀ t, during t → during' t)
    (hpost : ∀ t a, post t a → post' t a) :
    supply.Ends drift n number during' post' before r := by
  induction h with
  | finished hw h => exact .finished hw (hpost _ _ h)
  | parked hw h _ ih => exact .parked hw (hduring _ h) ih

theorem Ends.of_within {before' : Shelf}
    {r : Shared Nat Session × Progress Nat StoreFault Session α} (hbefore : before.Within before')
    (h : supply.Ends drift n number during post before' r) :
    supply.Ends drift n number during post before r := by
  cases h with
  | finished hw h => exact .finished (hbefore.trans hw) h
  | parked hw h hwake => exact .parked (hbefore.trans hw) h hwake

/-- What holds where work waits and where it ends holds where it has come to. -/
theorem Ends.now {r : Shared Nat Session × Progress Nat StoreFault Session α}
    (h : supply.Ends drift n number during post before r)
    (hpost : ∀ t a, post t a → during t) : during r.1 := by
  cases h with
  | finished _ h => exact hpost _ _ h
  | parked _ h _ => exact h

/-- Work followed by work on its result ends when the first ends where the second can go on. -/
theorem Ends.andThen {f : β → Work α}
    {r : Shared Nat Session × Progress Nat StoreFault Session β}
    (h : supply.Ends drift n number during mid before r)
    (hf : ∀ t b, mid t b → supply.Ends drift n number during post t.outer.shelf
      ((f b).run supply.supplier number t)) :
    supply.Ends drift n number during post before
      (Progress.andThen supply.supplier number f r) := by
  induction h with
  | finished hw h => exact (hf _ _ h).of_within hw
  | parked hw h _ ih =>
      refine .parked hw h fun t ht => ?_
      rw [wake_bind]
      exact ih t ht

theorem Ends.bind {w : Work β} {f : β → Work α}
    (h : supply.Ends drift n number during mid before (w.run supply.supplier number s))
    (hf : ∀ t b, mid t b → supply.Ends drift n number during post t.outer.shelf
      ((f b).run supply.supplier number t)) :
    supply.Ends drift n number during post before ((w.bind f).run supply.supplier number s) := by
  rw [Task.run_bind]
  exact h.andThen hf

/-! ## A fetch -/

section Fetching

variable (f : Fetch) (next : Except StoreFault (Option Nat) → Work α)

/-- Work goes on with the answer of a fetch, or waits in it. -/
def afterTurn (supply : Supply) (number : Nat) :
    Shared Nat Session × Fetch.Turn Nat StoreFault →
      Shared Nat Session × Progress Nat StoreFault Session α
  | (t, .answered reply) => (next reply).run supply.supplier number t
  | (t, .waiting phase) => (t, .parked (.fetching f phase next))

/-- A fetch waits, with fewer than `left` pauses to come, or its reply is there and work goes on. -/
inductive Turns (supply : Supply) (number left : Nat) (s : Shared Nat Session) :
    Shared Nat Session × Progress Nat StoreFault Session α → Prop
  | waits {t : Shared Nat Session} {phase : Fetch.Phase} : supply.Onward s t →
      phase.pauses < left → Turns supply number left s (t, .parked (.fetching f phase next))
  | goes {t : Shared Nat Session} {reply : Except StoreFault (Option Nat)} :
      supply.Onward s t → supply.Told t.outer.shelf f.entity f.id reply →
      Turns supply number left s ((next reply).run supply.supplier number t)

variable {f next}

theorem turns_of_comes {left : Nat} {r : Shared Nat Session × Fetch.Turn Nat StoreFault}
    (h : supply.Coherent s) (comes : Fetch.Comes supply.supplier f left s r) :
    supply.Turns f next number (left + 1) s (afterTurn f next supply number r) := by
  have serviced := serviced_of_comes h comes
  rcases r with ⟨t, reply | phase⟩
  · exact .goes serviced.1 serviced.2
  · exact .waits serviced (Nat.lt_succ_of_le (comes.pauses_le rfl))

theorem Turns.of_onward {left : Nat}
    {r : Shared Nat Session × Progress Nat StoreFault Session α} (h : supply.Onward s t)
    (turns : supply.Turns f next number left t r) : supply.Turns f next number left s r := by
  cases turns with
  | waits h' hlt => exact .waits (h.trans h') hlt
  | goes h' told => exact .goes (h.trans h') told

/-- A fetch of work is what its start comes to, and what goes on from there. -/
theorem run_fetch (scope : Option Nat) (entity id : String) :
    (Task.fetch scope entity id next).run supply.supplier number s =
      afterTurn ⟨number, entity, id⟩ next supply number
        (Fetch.start supply.supplier ⟨number, entity, id⟩
          (s.touch scope (Record.key entity id))) := by
  simp only [Task.run, afterTurn]
  split
  next hstart => simp only [Fetch.key] at hstart; rw [hstart]
  next hstart => simp only [Fetch.key] at hstart; rw [hstart]

theorem turns_fetch {scope : Option Nat} {entity id : String} (h : supply.Coherent s) :
    supply.Turns ⟨number, entity, id⟩ next number (supply.supplier.attempts + 1) s
      ((Task.fetch scope entity id next).run supply.supplier number s) := by
  have touched := h.touch scope (Record.key entity id)
  rw [run_fetch]
  exact .of_onward touched (turns_of_comes touched.coherent
    (Fetch.proceed_comes supply.supplier ⟨number, entity, id⟩ 0 supply.supplier.attempts _))

/-- Each time it is woken a fetch has fewer pauses to come, and after its load it does not wait. -/
theorem turns_wake {phase : Fetch.Phase} (h : supply.Coherent s) :
    supply.Turns f next number phase.pauses s
      (supply.wake number (.fetching f phase next) s) := by
  cases phase with
  | loading mark =>
      have replied := h.later (supply.reply_later f.entity f.id h.serves) s.scopes s.waits
      have told := supply.reply_tells f.entity f.id h.serves
      exact .goes (replied.trans (replied.coherent.finish f mark told)) told
  | pausing attempt left =>
      have turns : supply.Turns f next number _ _ _ := turns_of_comes h
        (Fetch.proceed_comes supply.supplier f attempt left s)
      simp only [wake, Machine.resume]
      split
      next t reply hproceed =>
        rw [hproceed] at turns
        exact turns
      next t phase hproceed =>
        rw [hproceed] at turns
        exact turns

/-- A fetch ends where work that goes on with its reply does. -/
theorem Turns.ends (hduring : ∀ t, supply.Drifts drift n s t → during t)
    (hnext : ∀ t reply, supply.Drifts drift n s t → supply.Told t.outer.shelf f.entity f.id reply →
      supply.Ends drift n number during post t.outer.shelf
        ((next reply).run supply.supplier number t))
    (left : Nat) {r : Shared Nat Session × Progress Nat StoreFault Session α}
    (hs : supply.Drifts drift n s t) (turns : supply.Turns f next number left t r) :
    supply.Ends drift n number during post t.outer.shelf r := by
  -- On the pauses that are left, whatever happens in each of them.
  induction left using Nat.strongRecOn generalizing t r with
  | _ left ih =>
  cases turns with
  | goes h told => exact (hnext _ _ (hs.trans h.drifts) told).of_within h.within
  | @waits u phase h hlt =>
      refine .parked h.within (hduring u (hs.trans h.drifts)) fun v hv => ?_
      exact ih phase.pauses hlt ((hs.trans h.drifts).trans hv) (turns_wake hv.coherent)

theorem fetch_ends {scope : Option Nat} {entity id : String} (h : supply.Coherent s)
    (hduring : ∀ t, supply.Drifts drift n s t → during t)
    (hnext : ∀ t reply, supply.Drifts drift n s t → supply.Told t.outer.shelf entity id reply →
      supply.Ends drift n number during post t.outer.shelf
        ((next reply).run supply.supplier number t)) :
    supply.Ends drift n number during post s.outer.shelf
      ((Task.fetch scope entity id next).run supply.supplier number s) :=
  Turns.ends hduring hnext _ h.onward.drifts (turns_fetch h)

end Fetching

/-! ## A resolution -/

/-- A resolution about the record at a place ends with what it may come to. -/
theorem resolve_ends {place : Option Nat} {base : Value} {scope : Nat} (r : Resolution α)
    (h : supply.Coherent s) (hplace : s.outer.shelf.Shows base place)
    (hduring : ∀ t, supply.Drifts drift n s t → during t) :
    supply.Ends drift n number during
      (fun t a => supply.Drifts drift n s t ∧ r.Yields supply.Found base a) s.outer.shelf
      ((Work.resolve place scope r).run supply.supplier number s) := by
  -- Each fetch may wait, so the rest of the resolution goes on from a later state than `s`.
  suffices goes : ∀ {t}, supply.Drifts drift n s t →
      supply.Ends drift n number during
        (fun t a => supply.Drifts drift n s t ∧ r.Yields supply.Found base a) t.outer.shelf
        ((Work.resolve place scope r).run supply.supplier number t) from goes h.onward.drifts
  induction r with
  | done a =>
      intro t ht
      exact .finished (.refl _) ⟨ht, .done⟩
  | look next ih =>
      intro t ht
      have hbase : t.outer.shelf.get? place = base := (hplace.within ht.within).get?
      simp only [Work.resolve, Task.run, hbase]
      exact (ih base ht).mono (fun _ h => h) fun _ _ h => ⟨h.1, .look h.2⟩
  | fetch entity id next ih =>
      intro t ht
      rw [Work.resolve_fetch]
      refine fetch_ends ht.coherent (fun u hu => hduring u (ht.trans hu)) fun u reply hu told => ?_
      obtain ⟨record, hfound, reports⟩ := told.reports
      rw [Work.run_goOn reports]
      exact (ih record (ht.trans hu)).mono (fun _ h => h) fun _ _ h => ⟨h.1, .fetch hfound h.2⟩

end Supply

end Toolbar
