/-
# `Toolbar.Proofs.Session.Frame` — what work leaves alone

Work is a tree, so what it may do to a session can be read off it: each change that it makes, each
scope that it fetches through or leaves.  `Rules` say what is allowed, and `Obeys` that a tree keeps
to them in all its branches.  Then every run of it does, up to its next wait, and what it has left to
do behind that wait does too (`Task.Obeys.run`, `Wait.Obeys.wake`).

What a call of a pipeline may do is `Serves`: it changes that pipeline, whose form stays, and uses its
scope.
-/
import Toolbar.Proofs.Cache.Turn
import Toolbar.Proofs.Pipeline.Deed
import Toolbar.Session.Publish

namespace Toolbar

/-- What work may do: in sessions of `inv` it may lead from one to another as `may` says, and it may
use the scopes of `uses`. -/
structure Rules where
  inv : Session → Prop
  may : Session → Session → Prop
  uses : Nat → Prop

variable {α β : Type} {R R' : Rules}

/-- Work that keeps to rules in all its branches. -/
def Task.Obeys (R : Rules) : Work α → Prop
  | .done _ => True
  | .look next => ∀ s, R.inv s.outer → (next s).Obeys R
  | .change f next => (∀ s, R.inv s → R.may s (f s)) ∧ next.Obeys R
  | .move m next => (∀ scope, m = .leave scope → R.uses scope) ∧ ∀ count, (next count).Obeys R
  | .fetch scope _ _ next => (∀ n, scope = some n → R.uses n) ∧ ∀ reply, (next reply).Obeys R
  | .ask _ next => ∀ reply, (next reply).Obeys R

/-- What a wait goes on with. -/
def Wait.next {ρ φ σ α : Type} : Wait ρ φ σ α → Except φ (Option ρ) → Task ρ φ σ α
  | .fetching _ _ next | .asking _ next => next

/-- What a wait goes on with keeps to rules. -/
def Wait.Obeys (R : Rules) (w : Wait Nat StoreFault Session α) : Prop :=
  ∀ reply, (w.next reply).Obeys R

namespace Task

theorem Obeys.bind {t : Work β} {f : β → Work α} (h : t.Obeys R) (hf : ∀ b, (f b).Obeys R) :
    (t.bind f).Obeys R := by
  induction t with
  | done b => exact hf b
  | look next ih => exact fun s hs => ih s (h s hs)
  | change g next ih => exact ⟨h.1, ih h.2⟩
  | move m next ih => exact ⟨h.1, fun count => ih count (h.2 count)⟩
  | fetch scope entity id next ih => exact ⟨h.1, fun reply => ih reply (h.2 reply)⟩
  | ask request next ih => exact fun reply => ih reply (h reply)

/-- Weaker rules are kept too. -/
theorem Obeys.mono {t : Work α} (h : t.Obeys R) (inv : ∀ s, R'.inv s → R.inv s)
    (may : ∀ s t, R'.inv s → R.may s t → R'.may s t) (uses : ∀ n, R.uses n → R'.uses n) :
    t.Obeys R' := by
  induction t with
  | done a => trivial
  | look next ih => exact fun s hs => ih s (h s (inv _ hs))
  | change g next ih => exact ⟨fun s hs => may s _ hs (h.1 s (inv s hs)), ih h.2⟩
  | move m next ih =>
      exact ⟨fun scope hm => uses scope (h.1 scope hm), fun count => ih count (h.2 count)⟩
  | fetch scope entity id next ih =>
      exact ⟨fun n hn => uses n (h.1 n hn), fun reply => ih reply (h.2 reply)⟩
  | ask request next ih => exact fun reply => ih reply (h reply)

end Task

/-- Two sets of rules at once. -/
def Rules.both (R R' : Rules) : Rules where
  inv := fun s => R.inv s ∧ R'.inv s
  may := fun s t => R.may s t ∧ R'.may s t
  uses := fun n => R.uses n ∧ R'.uses n

theorem Task.Obeys.both {t : Work α} (h : t.Obeys R) (h' : t.Obeys R') : t.Obeys (R.both R') := by
  induction t with
  | done a => trivial
  | look next ih => exact fun s hs => ih s (h s hs.1) (h' s hs.2)
  | change g next ih => exact ⟨fun s hs => ⟨h.1 s hs.1, h'.1 s hs.2⟩, ih h.2 h'.2⟩
  | move m next ih =>
      exact ⟨fun scope hm => ⟨h.1 scope hm, h'.1 scope hm⟩,
        fun count => ih count (h.2 count) (h'.2 count)⟩
  | fetch scope entity id next ih =>
      exact ⟨fun n hn => ⟨h.1 n hn, h'.1 n hn⟩, fun reply => ih reply (h.2 reply) (h'.2 reply)⟩
  | ask request next ih => exact fun reply => ih reply (h reply) (h' reply)

/-! ## Servers -/

/-- Nothing has happened but at the store. -/
structure Session.Quiet (s t : Session) : Prop where
  pipelines : t.pipelines = s.pipelines
  controls : t.controls = s.controls
  bus : t.bus = s.bus
  configEntity : t.configEntity = s.configEntity

namespace Session

variable {s t u : Session}

theorem Quiet.refl (s : Session) : Quiet s s :=
  ⟨rfl, rfl, rfl, rfl⟩

theorem Quiet.trans (h : Quiet s t) (h' : Quiet t u) : Quiet s u where
  pipelines := h'.pipelines.trans h.pipelines
  controls := h'.controls.trans h.controls
  bus := h'.bus.trans h.bus
  configEntity := h'.configEntity.trans h.configEntity

theorem quiet_serve (request : Request) (s : Session) : Quiet s (s.serve request).1 := by
  unfold serve
  split <;> exact ⟨rfl, rfl, rfl, rfl⟩

end Session

/-- Who serves pauses and requests, some of them at once and the others later, and leaves all but the
store alone. -/
structure Server where
  supplier : Supplier Nat StoreFault Session
  /-- The answer to a request that was held back. -/
  answer : Request → Session → Session × Except StoreFault (Option Nat)
  pause_quiet : ∀ task wait delay (s : Session), s.Quiet (supplier.pause task wait delay s).1
  ask_quiet : ∀ task wait request (s : Session), s.Quiet (supplier.ask task wait request s).1
  answer_quiet : ∀ request (s : Session), s.Quiet (answer request s).1

namespace Server

/-- A session serves itself from its store. -/
def ofSession (attempts : Nat) (delay : Number) : Server where
  supplier := Session.supplier attempts delay
  answer := fun request s => s.serve request
  pause_quiet := fun _ _ _ _ => ⟨rfl, rfl, rfl, rfl⟩
  ask_quiet := fun _ _ request s => by
    simp only [Session.supplier]
    split
    · exact ⟨rfl, rfl, rfl, rfl⟩
    · exact .trans (t := s.write (.asked request)) ⟨rfl, rfl, rfl, rfl⟩ (Session.quiet_serve _ _)
  answer_quiet := Session.quiet_serve

/-- Goes on with what was parked. -/
def resume {α : Type} (server : Server) (q : Parked Nat StoreFault Session α)
    (s : Shared Nat Session) : Shared Nat Session × Progress Nat StoreFault Session α :=
  Machine.resume server.supplier server.answer q s

end Server

/-! ## Runs -/

/-- Rules that hold of any number of changes, and that do not mind what the store does. -/
structure Rules.Lasting (R : Rules) : Prop where
  quiet : ∀ s t : Session, s.Quiet t → R.may s t
  trans : ∀ s t u : Session, R.may s t → R.may t u → R.may s u
  inv : ∀ s t : Session, R.inv s → R.may s t → R.inv t

theorem Rules.Lasting.both (h : R.Lasting) (h' : R'.Lasting) : (R.both R').Lasting where
  quiet := fun s t quiet => ⟨h.quiet s t quiet, h'.quiet s t quiet⟩
  trans := fun s t u before after => ⟨h.trans s t u before.1 after.1, h'.trans s t u before.2 after.2⟩
  inv := fun s t inv may => ⟨h.inv s t inv.1 may.1, h'.inv s t inv.2 may.2⟩

/-- What has happened between two states keeps to rules. -/
structure Rules.Between (R : Rules) (s t : Shared Nat Session) : Prop where
  may : R.may s.outer t.outer
  keys : ∀ n, ¬ R.uses n → t.scopes.keys n = s.scopes.keys n

namespace Rules

variable {s t u : Shared Nat Session}

theorem Between.trans (lasting : R.Lasting) (h : R.Between s t) (h' : R.Between t u) :
    R.Between s u where
  may := lasting.trans _ _ _ h.may h'.may
  keys := fun n hn => (h'.keys n hn).trans (h.keys n hn)

theorem Between.quiet (lasting : R.Lasting) (quiet : s.outer.Quiet t.outer)
    (scopes : t.scopes = s.scopes) : R.Between s t where
  may := lasting.quiet _ _ quiet
  keys := fun n _ => by rw [scopes]

theorem Between.inv (lasting : R.Lasting) (h : R.Between s t) (hs : R.inv s.outer) :
    R.inv t.outer :=
  lasting.inv _ _ hs h.may

theorem Between.touch (lasting : R.Lasting) {scope : Option Nat}
    (uses : ∀ n, scope = some n → R.uses n) (key : String) : R.Between s (s.touch scope key) := by
  cases scope with
  | none => exact .quiet lasting (.refl _) rfl
  | some n =>
      refine ⟨lasting.quiet _ _ (.refl _), fun m hm => Scopes.keys_touch_of_ne ?_ _ _⟩
      rintro rfl
      exact hm (uses m rfl)

theorem Between.move (lasting : R.Lasting) {m : Move Nat}
    (uses : ∀ scope, m = .leave scope → R.uses scope) : R.Between s (m.apply s).1 := by
  cases m with
  | put | invalidate | clear => exact .quiet lasting (.refl _) rfl
  | leave scope =>
      refine ⟨lasting.quiet _ _ (.refl _), fun n hn => ?_⟩
      have hne : n ≠ scope := by
        rintro rfl
        exact hn (uses n rfl)
      exact (Scopes.keys_set s.scopes scope n []).trans (if_neg hne)

end Rules

section Running

variable {server : Server} {number left : Nat} {f : Fetch} {s : Shared Nat Session}
  {r : Shared Nat Session × Fetch.Turn Nat StoreFault}

/-- A turn of a fetch does nothing but at the store and in the cache. -/
theorem Fetch.Comes.quiet (h : f.Comes server.supplier left s r) :
    s.outer.Quiet r.1.outer ∧ r.1.scopes = s.scopes := by
  induction h with
  | hit => exact ⟨.refl _, rfl⟩
  | @passed _ wait delay s _ _ hpause _ ih =>
      have paused := server.pause_quiet f.task wait delay s.outer
      rw [hpause] at paused
      exact ⟨paused.trans ih.1, ih.2⟩
  | @paused _ _ wait delay s _ hpause =>
      have paused := server.pause_quiet f.task wait delay s.outer
      rw [hpause] at paused
      exact ⟨paused, rfl⟩
  | @replied _ wait s _ _ hask =>
      have asked := server.ask_quiet f.task wait f.request s.outer
      rw [hask] at asked
      exact ⟨asked, rfl⟩
  | @asked _ wait s _ hask =>
      have asked := server.ask_quiet f.task wait f.request s.outer
      rw [hask] at asked
      exact ⟨asked, rfl⟩

theorem Rules.Between.of_comes (lasting : R.Lasting) (h : f.Comes server.supplier left s r) :
    R.Between s r.1 :=
  .quiet lasting h.quiet.1 h.quiet.2

theorem Move.apply_waits (m : Move Nat) (s : Shared Nat Session) :
    (m.apply s).1.waits = s.waits := by
  cases m <;> rfl

theorem Move.apply_outer (m : Move Nat) (s : Shared Nat Session) :
    (m.apply s).1.outer = s.outer := by
  cases m <;> rfl

/-- Who is given up has changed nothing but the cache. -/
theorem Machine.giveUp_quiet (q : Parked Nat StoreFault Session α) (s : Shared Nat Session) :
    (giveUp q s).outer = s.outer ∧ (giveUp q s).scopes = s.scopes ∧
      (giveUp q s).waits = s.waits := by
  obtain ⟨wait, task, ⟨f, phase, next⟩ | ⟨request, next⟩⟩ := q
  · cases phase <;> exact ⟨rfl, rfl, rfl⟩
  · exact ⟨rfl, rfl, rfl⟩

/-- Where work that keeps to rules has come to. -/
structure Rules.Reaches (R : Rules) (s : Shared Nat Session)
    (r : Shared Nat Session × Progress Nat StoreFault Session α) : Prop where
  between : R.Between s r.1
  waits : ∀ w, r.2 = .parked w → w.Obeys R

theorem Rules.Reaches.behind (lasting : R.Lasting) {t : Shared Nat Session}
    {r : Shared Nat Session × Progress Nat StoreFault Session α} (between : R.Between s t)
    (h : R.Reaches t r) : R.Reaches s r :=
  ⟨between.trans lasting h.between, h.waits⟩

theorem Task.Obeys.run (lasting : R.Lasting) {t : Work α} (h : t.Obeys R) (hs : R.inv s.outer) :
    R.Reaches s (t.run server.supplier number s) := by
  induction t generalizing s with
  | done a => exact ⟨.quiet lasting (.refl _) rfl, fun w hw => nomatch hw⟩
  | look next ih => exact ih s (h s hs) hs
  | change g next ih =>
      have between : R.Between s { s with outer := g s.outer } := ⟨h.1 _ hs, fun _ _ => rfl⟩
      exact (ih h.2 (between.inv lasting hs)).behind lasting between
  | move m next ih =>
      have between : R.Between s (m.apply s).1 := .move lasting h.1
      exact (ih _ (h.2 _) (between.inv lasting hs)).behind lasting between
  | fetch scope entity id next ih =>
      have turns : ∀ r, Fetch.start server.supplier ⟨number, entity, id⟩
          (s.touch scope (Fetch.key ⟨number, entity, id⟩)) = r → R.Between s r.1 := by
        rintro _ rfl
        exact .trans lasting (.touch lasting h.1 _)
          (.of_comes lasting (Fetch.proceed_comes _ _ _ _ _))
      simp only [Task.run]
      split
      next t reply hturn =>
        have between := turns _ hturn
        exact (ih reply (h.2 reply) (between.inv lasting hs)).behind lasting between
      next t phase hturn =>
        refine ⟨turns _ hturn, fun w hw => ?_⟩
        cases hw
        exact h.2
  | ask request next ih =>
      have quiet := server.ask_quiet number (s.waits + 1) request s.outer
      simp only [Task.run]
      split
      next outer reply hask =>
        rw [hask] at quiet
        have between : R.Between s { s with outer } := .quiet lasting quiet rfl
        exact (ih reply (h reply) (between.inv lasting hs)).behind lasting between
      next outer hask =>
        rw [hask] at quiet
        refine ⟨.quiet lasting quiet rfl, fun w hw => ?_⟩
        cases hw
        exact h

/-- What is woken keeps to the rules. -/
theorem Wait.Obeys.wake (lasting : R.Lasting) {q : Parked Nat StoreFault Session α}
    (h : q.what.Obeys R) (hs : R.inv s.outer) : R.Reaches s (server.resume q s) := by
  have answered := fun request => server.answer_quiet request s.outer
  rcases q with ⟨wait, number, ⟨f, phase, next⟩ | ⟨request, next⟩⟩
  · cases phase with
    | loading mark =>
        have between : R.Between s (f.finish mark (server.answer f.request s.outer).2
            { s with outer := (server.answer f.request s.outer).1 }) :=
          .quiet lasting (answered _) rfl
        exact ((h _).run lasting (between.inv lasting hs)).behind lasting between
    | pausing attempt left =>
        have between : R.Between s (f.proceed server.supplier attempt left s).1 :=
          .of_comes lasting (Fetch.proceed_comes _ _ _ _ _)
        simp only [Server.resume, Machine.resume]
        split
        next t reply hturn =>
          rw [hturn] at between
          exact ((h reply).run lasting (between.inv lasting hs)).behind lasting between
        next t phase hturn =>
          rw [hturn] at between
          refine ⟨between, fun w hw => ?_⟩
          cases hw
          exact h
  · have between : R.Between s { s with outer := (server.answer request s.outer).1 } :=
      .quiet lasting (answered _) rfl
    exact ((h _).run lasting (between.inv lasting hs)).behind lasting between

end Running

/-! ## Calls -/

theorem Session.getElem?_onPipeline {n : Nat} {p : Pipeline} {s : Session}
    (h : s.pipelines[n]? = some p) (f : Pipeline → Pipeline) :
    (s.onPipeline n f).pipelines[n]? = some (f p) := by
  simp only [onPipeline, List.getElem?_modify_eq, h]
  rfl

namespace Pipeline

/-- The form of a pipeline stays, and its configurations do or are such as it is given. -/
structure SameForm (given : List Button.Config → Prop) (p q : Pipeline) : Prop where
  record : SameRecord p q
  listens : q.listens = p.listens
  configs : q.configs = p.configs ∨ given q.configs

/-- What a call of a pipeline may do to the session: it changes the pipeline, and not its form. -/
structure Serves (n : Nat) (given : List Button.Config → Prop) (s t : Session) : Prop where
  others : ∀ m, m ≠ n → t.pipelines[m]? = s.pipelines[m]?
  own : ∀ p, s.pipelines[n]? = some p → ∃ q, t.pipelines[n]? = some q ∧ SameForm given p q
  controls : t.controls = s.controls
  bus : t.bus = s.bus
  configEntity : t.configEntity = s.configEntity

/-- The rules of the calls of a pipeline that give it such configurations. -/
def rules (n : Nat) (given : List Button.Config → Prop) : Rules where
  inv := fun _ => True
  may := Serves n given
  uses := (· = n)

section Calls

variable {n : Nat} {given : List Button.Config → Prop} {s t : Session}

theorem Serves.onPipeline {f : Pipeline → Pipeline} (form : ∀ p, SameForm given p (f p))
    (quiet : s.Quiet t) : Serves n given s (t.onPipeline n f) where
  others := fun m hm => by
    rw [← quiet.pipelines]
    exact List.getElem?_modify_ne f _ (Ne.symm hm)
  own := fun p hp => ⟨f p, Session.getElem?_onPipeline (quiet.pipelines ▸ hp) f, form p⟩
  controls := quiet.controls
  bus := quiet.bus
  configEntity := quiet.configEntity

theorem Serves.loaded (place : Option Nat) (s : Session) :
    Serves n given s (s.loadedPipeline n place) := by
  unfold Session.loadedPipeline
  split
  · exact .onPipeline (fun _ => ⟨⟨rfl, rfl⟩, rfl, .inl rfl⟩) ⟨rfl, rfl, rfl, rfl⟩
  · exact .onPipeline (fun _ => ⟨⟨rfl, rfl⟩, rfl, .inl rfl⟩) ⟨rfl, rfl, rfl, rfl⟩

theorem obeys_pipeline {α : Type} {R : Rules} {f : Pipeline → Work α}
    (h : ∀ p, (f p).Obeys R) : (Work.pipeline n >>= f).Obeys R :=
  fun _ _ => h _

theorem obeys_modify {α : Type} {R : Rules} {g : Session → Session} {f : Unit → Work α}
    (may : ∀ s, R.inv s → R.may s (g s)) (h : (f ()).Obeys R) : (Task.modify g >>= f).Obeys R :=
  ⟨may, h⟩

/-- Changes of a pipeline that leave its form. -/
theorem obeys_onPipeline {α : Type} {g : Pipeline → Pipeline} {f : Unit → Work α}
    (form : ∀ p, SameForm given p (g p)) (h : (f ()).Obeys (rules n given)) :
    (Task.modify (Session.onPipeline n g) >>= f).Obeys (rules n given) :=
  obeys_modify (fun _ _ => .onPipeline form ⟨rfl, rfl, rfl, rfl⟩) h

/-- A resolution makes no changes. -/
theorem obeys_resolve {α : Type} {R : Rules} {base : Option Nat} (uses : R.uses n)
    (r : Resolution α) : (Work.resolve base n r).Obeys R := by
  have own : ∀ m, some n = some m → R.uses m := by
    rintro m ⟨⟩
    exact uses
  induction r with
  | done a => trivial
  | look next ih => exact fun s _ => ih _
  | fetch entity id next ih =>
      rw [Work.resolve]
      refine ⟨own, fun reply => ?_⟩
      rcases reply with f | _ | place
      · exact ih none
      · exact ih none
      · exact fun s _ => ih _

theorem obeys_resolveOne {R : Rules} (uses : R.uses n) (c : Button.Config) :
    (resolveOne n c).Obeys R := by
  refine obeys_pipeline fun p => .bind (obeys_resolve uses _) fun resolved => ?_
  cases resolved with
  | error f => trivial
  | ok resolved => exact obeys_pipeline fun q => .bind (obeys_resolve uses _) fun shown => trivial

theorem obeys_resolveEach {R : Rules} (uses : R.uses n) :
    ∀ cs : List Button.Config, (resolveEach n cs).Obeys R
  | [] => trivial
  | c :: cs => by
      refine .bind (obeys_resolveOne uses c) fun b => ?_
      cases b with
      | error f => trivial
      | ok b =>
          refine .bind (obeys_resolveEach uses cs) fun bs => ?_
          cases bs <;> trivial

theorem obeys_endFailed (n : Nat) : (endFailed n).Obeys (rules n given) :=
  obeys_onPipeline (fun _ => ⟨⟨rfl, rfl⟩, rfl, .inl rfl⟩) trivial

theorem obeys_cycle (n : Nat) : (cycle n).Obeys (rules n given) := by
  refine obeys_pipeline fun p => ?_
  cases p.mayStart with
  | false => trivial
  | true =>
      refine obeys_onPipeline (fun _ => ⟨⟨rfl, rfl⟩, rfl, .inl rfl⟩) ?_
      cases Button.Config.hash p.configs with
      | error f => trivial
      | ok hash =>
          refine obeys_onPipeline (fun _ => ⟨⟨rfl, rfl⟩, rfl, .inl rfl⟩) ?_
          cases Button.sortByPosition p.configs with
          | error f => exact obeys_endFailed n
          | ok sorted =>
              refine .bind (obeys_resolveEach rfl sorted) fun made => ?_
              cases made with
              | error f => exact obeys_endFailed n
              | ok buttons => exact obeys_onPipeline (fun _ => ⟨⟨rfl, rfl⟩, rfl, .inl rfl⟩) trivial

theorem obeys_afterLoad (n : Nat) (reply : Except StoreFault (Option Nat)) :
    (afterLoad n reply).Obeys (rules n given) := by
  cases reply with
  | error f =>
      refine obeys_modify (fun s _ => ?_) (obeys_pipeline fun p => trivial)
      exact .onPipeline (fun _ => ⟨⟨rfl, rfl⟩, rfl, .inl rfl⟩) ⟨rfl, rfl, rfl, rfl⟩
  | ok place => exact obeys_modify (fun s _ => .loaded place s) (obeys_cycle n)

theorem obeys_run (n : Nat) : (run n).Obeys (rules n fun _ => False) := by
  rw [run_eq]
  refine obeys_onPipeline (fun _ => ⟨⟨rfl, rfl⟩, rfl, .inl rfl⟩) (obeys_pipeline fun p => ?_)
  split
  · refine obeys_modify (fun s _ => ?_) (obeys_cycle n)
    exact .onPipeline (fun _ => ⟨⟨rfl, rfl⟩, rfl, .inl rfl⟩) ⟨rfl, rfl, rfl, rfl⟩
  · refine ⟨?_, obeys_afterLoad n⟩
    rintro m ⟨⟩
    rfl

theorem obeys_reload (n : Nat) : (reload n).Obeys (rules n fun _ => False) := by
  refine ⟨?_, fun _ => obeys_run n⟩
  rintro scope ⟨⟩
  rfl

theorem obeys_replaceConfigs (n : Nat) {configs : List Button.Config} (gives : given configs) :
    (replaceConfigs n configs).Obeys (rules n given) :=
  obeys_onPipeline (fun _ => ⟨⟨rfl, rfl⟩, rfl, .inr gives⟩) (obeys_cycle n)

theorem obeys_setConfigs (n : Nat) {configs : List Button.Config} (gives : given configs) :
    (setConfigs n configs).Obeys (rules n given) := by
  have replace := obeys_replaceConfigs n gives
  refine obeys_pipeline fun p => ?_
  split
  · cases Button.Config.hash configs with
    | error f => trivial
    | ok hash =>
        dsimp only
        split
        · trivial
        · exact replace
  · exact replace

theorem obeys_onSaved (n : Nat) (payload : Value) :
    (onSaved n payload).Obeys (rules n fun _ => False) := by
  refine obeys_pipeline fun p => ?_
  split
  · exact .bind (obeys_reload n) fun _ => trivial
  · trivial

/-- The configurations that a call gives to its pipeline. -/
def Call.gives : Call → List Button.Config → Prop
  | setConfigs configs => (· = configs)
  | _ => fun _ => False

theorem obeys_call (n : Nat) (c : Call) : (c.work n).Obeys (rules n c.gives) := by
  cases c with
  | run => exact obeys_run n
  | reload => exact obeys_reload n
  | setConfigs configs => exact obeys_setConfigs n rfl
  | saved payload => exact .bind (obeys_onSaved n payload) fun _ => trivial

end Calls

end Pipeline

end Toolbar
