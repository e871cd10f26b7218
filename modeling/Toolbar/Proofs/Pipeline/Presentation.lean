/-
# `Toolbar.Proofs.Pipeline.Presentation` — what a pipeline shows at any moment

Calls, teardowns and saves overlap wherever they wait, and each sets the stage, the fault and the
buttons of a pipeline as it goes.  Every one of these changes keeps the pipeline `Presentable`:

    in the stage error   it has no buttons, and a text that is not empty says why
    the buttons          stem from one list of configurations that it was given, in its order

A cycle makes its buttons while others change the pipeline, and writes them down at its end.  What
they stem from is therefore a matter of what the work returns (`Task.Returns`), and not of what the
pipeline holds by then.
-/
import Toolbar.Proofs.Button.Order
import Toolbar.Proofs.Pipeline.TearDown

namespace Toolbar

/-! ## What resolutions come to -/

/-- What a resolution may come to, whatever it finds and whatever it is answered. -/
inductive Resolution.Reaches {α : Type} : Resolution α → α → Prop
  | done (a : α) : Reaches (.done a) a
  | look {next : Value → Resolution α} {a : α} (base : Value) :
      Reaches (next base) a → Reaches (.look next) a
  | fetch {entity id : String} {next : Option Value → Resolution α} {a : α}
      (record : Option Value) : Reaches (next record) a → Reaches (.fetch entity id next) a

namespace Resolution

variable {α β : Type}

theorem Reaches.of_bind {r : Resolution α} {f : α → Resolution β} {b : β}
    (h : (r.bind f).Reaches b) : ∃ a, r.Reaches a ∧ (f a).Reaches b := by
  induction r with
  | done a => exact ⟨a, .done a, h⟩
  | look next ih =>
      cases h with
      | look base h =>
          obtain ⟨a, reaches, follows⟩ := ih base h
          exact ⟨a, .look base reaches, follows⟩
  | fetch entity id next ih =>
      cases h with
      | fetch record h =>
          obtain ⟨a, reaches, follows⟩ := ih record h
          exact ⟨a, .fetch record reaches, follows⟩

/-- Work with faults that goes well has gone well up to any point of it. -/
theorem Reaches.of_run_bind {x : ExceptT Fault Resolution α} {f : α → ExceptT Fault Resolution β}
    {b : β} (h : (x >>= f).run.Reaches (.ok b)) :
    ∃ a, x.run.Reaches (.ok a) ∧ (f a).run.Reaches (.ok b) := by
  have bound : (x.run.bind (ExceptT.bindCont f)).Reaches (.ok b) := h
  obtain ⟨made, reaches, follows⟩ := bound.of_bind
  cases made with
  | ok a => exact ⟨a, reaches, follows⟩
  | error e => cases follows

end Resolution

/-- The texts of a configuration are replaced, and its other fields stay. -/
theorem Button.Config.resolve_kept {c resolved : Button.Config}
    (h : c.resolve.run.Reaches (.ok resolved)) :
    resolved = { c with
      label := resolved.label
      tooltip := resolved.tooltip
      url := resolved.url
      script := resolved.script } := by
  obtain ⟨label, -, h⟩ := h.of_run_bind
  obtain ⟨tooltip, -, h⟩ := h.of_run_bind
  obtain ⟨url, -, h⟩ := h.of_run_bind
  obtain ⟨script, -, h⟩ := h.of_run_bind
  cases h
  rfl

/-! ## What work returns -/

section Returning

variable {α β : Type} {inv : Session → Prop} {Q : α → Prop} {P : β → Prop}

/-- Work whose results are such, when it looks at sessions of `inv` alone. -/
def Task.Returns (inv : Session → Prop) (Q : α → Prop) : Work α → Prop
  | .done a => Q a
  | .look next => ∀ s, inv s.outer → (next s).Returns inv Q
  | .change _ next => next.Returns inv Q
  | .move _ next => ∀ count, (next count).Returns inv Q
  | .fetch _ _ _ next => ∀ reply, (next reply).Returns inv Q
  | .ask _ next => ∀ reply, (next reply).Returns inv Q

theorem Task.Returns.bind {t : Work β} {f : β → Work α} (h : t.Returns inv P)
    (hf : ∀ b, P b → (f b).Returns inv Q) : (t.bind f).Returns inv Q := by
  induction t with
  | done b => exact hf b h
  | look next ih => exact fun s hs => ih s (h s hs)
  | change g next ih => exact ih h
  | move m next ih => exact fun count => ih count (h count)
  | fetch scope entity id next ih => exact fun reply => ih reply (h reply)
  | ask request next ih => exact fun reply => ih reply (h reply)

/-- What follows has to keep to the rules for the results that there are. -/
theorem Task.Obeys.bind_of_returns {R : Rules} {t : Work β} {f : β → Work α} (h : t.Obeys R)
    (returns : t.Returns R.inv P) (hf : ∀ b, P b → (f b).Obeys R) : (t.bind f).Obeys R := by
  induction t with
  | done b => exact hf b returns
  | look next ih => exact fun s hs => ih s (h s hs) (returns s hs)
  | change g next ih => exact ⟨h.1, ih h.2 returns⟩
  | move m next ih => exact ⟨h.1, fun count => ih count (h.2 count) (returns count)⟩
  | fetch scope entity id next ih => exact ⟨h.1, fun reply => ih reply (h.2 reply) (returns reply)⟩
  | ask request next ih => exact fun reply => ih reply (h reply) (returns reply)

theorem Task.Returns.mono {Q' : α → Prop} {t : Work α} (h : t.Returns inv Q)
    (imp : ∀ a, Q a → Q' a) : t.Returns inv Q' := by
  have bound := h.bind (f := Task.done) imp
  rwa [Task.bind_done] at bound

theorem Work.resolve_returns {base : Option Nat} {n : Nat} (r : Resolution α) :
    (Work.resolve base n r).Returns inv r.Reaches := by
  induction r with
  | done a => exact .done a
  | look next ih => exact fun s _ => (ih _).mono fun a => .look _
  | fetch entity id next ih =>
      rw [Work.resolve]
      intro reply
      rcases reply with f | _ | place
      · exact (ih none).mono fun a => .fetch none
      · exact (ih none).mono fun a => .fetch none
      · exact fun s _ => (ih _).mono fun a => .fetch _

end Returning

namespace Pipeline

open Button

/-! ## Buttons and what they stem from -/

/-- A button stems from a configuration: its texts are replaced, and its condition was found to
hold. -/
structure DrawnFrom (host : Action.Host) (c : Config) (b : Shown) : Prop where
  kept : b.config = { c with
    label := b.config.label
    tooltip := b.config.tooltip
    url := b.config.url
    script := b.config.script }
  texts : c.resolve.run.Reaches (.ok b.config)
  holds : (Expr.holdsFor true host.toSurroundings c.visibility).Reaches true
  marked : b.toValue.field "is_visible" = .bool true

/-- Buttons stem from some of these configurations, one after the other in the order of their
positions. -/
def Drawn (host : Action.Host) (configs : List Config) (buttons : List Shown) : Prop :=
  ∃ sorted cs : List Config,
    ((∀ c ∈ configs, c.Placed) → StableSort Config.place configs sorted) ∧
    cs.Sublist sorted ∧ List.Forall₂ (DrawnFrom host) cs buttons

section Drawing

variable {host : Action.Host} {c : Config} {b : Shown} {configs sorted cs : List Config}
  {buttons : List Shown}

theorem DrawnFrom.place (h : DrawnFrom host c b) : b.config.place = c.place := by
  rw [h.kept]
  rfl

theorem drawn_nil (host : Action.Host) (configs : List Config) : Drawn host configs [] :=
  ⟨_, [], fun _ => stableSort_mergeSort configs, List.nil_sublist _, .nil⟩

/-- No configurations, no buttons. -/
theorem Drawn.eq_nil (h : Drawn host [] buttons) : buttons = [] := by
  obtain ⟨sorted, cs, stable, sub, drawn⟩ := h
  have empty : sorted = [] := eq_nil_of_filters fun k => ((stable nofun).same k).symm
  rw [empty] at sub
  cases List.sublist_nil.mp sub
  cases drawn
  rfl

theorem Drawn.of_sorted (order : sortByPosition configs = .ok sorted) (sub : cs.Sublist sorted)
    (drawn : List.Forall₂ (DrawnFrom host) cs buttons) : Drawn host configs buttons := by
  refine ⟨sorted, cs, fun placed => ?_, sub, drawn⟩
  rw [sortByPosition_eq placed] at order
  cases order
  exact stableSort_mergeSort configs

/-- What stems from configurations in order is in order. -/
theorem pairwise_of_drawn (drawn : List.Forall₂ (DrawnFrom host) cs buttons)
    (ordered : cs.Pairwise (·.place ≤ ·.place)) :
    buttons.Pairwise (·.config.place ≤ ·.config.place) := by
  have places : buttons.map (·.config.place) = cs.map (·.place) := by
    induction drawn with
    | nil => rfl
    | cons head _ ih =>
        rw [List.map_cons, List.map_cons, head.place, ih (List.pairwise_cons.mp ordered).2]
  have mapped : (cs.map (·.place)).Pairwise (· ≤ ·) := List.pairwise_map.mpr ordered
  rw [← places] at mapped
  exact List.pairwise_map.mp mapped

theorem Drawn.ordered (h : Drawn host configs buttons) (placed : ∀ c ∈ configs, c.Placed) :
    buttons.Pairwise (·.config.place ≤ ·.config.place) := by
  obtain ⟨sorted, cs, stable, sub, drawn⟩ := h
  exact pairwise_of_drawn drawn ((stable placed).sorted.sublist sub)

end Drawing

/-! ## What every change keeps -/

/-- A pipeline may be shown: it has no buttons when it has failed, and then says why; and its
buttons stem from one list of configurations that it was given. -/
structure Presentable (given : List Config → Prop) (host : Action.Host) (p : Pipeline) :
    Prop where
  hosted : p.host = host
  configs : given p.configs
  failed : p.stage = .error → p.buttons = [] ∧ ∃ text, p.error = some text ∧ text ≠ ""
  buttons : ∃ configs, given configs ∧ Drawn host configs p.buttons

section Changes

variable {given : List Config → Prop} {host : Action.Host} {p q : Pipeline}

theorem presentable_built (configs : given p.configs) : Presentable given p.host p.built where
  hosted := rfl
  configs := configs
  failed := nofun
  buttons := ⟨p.configs, configs, drawn_nil _ _⟩

theorem Presentable.onward (h : Presentable given host p) (hosted : q.host = p.host)
    (configs : q.configs = p.configs) (buttons : q.buttons = p.buttons) (stage : q.stage ≠ .error) :
    Presentable given host q where
  hosted := hosted.trans h.hosted
  configs := configs ▸ h.configs
  failed := fun failed => absurd failed stage
  buttons := buttons ▸ h.buttons

theorem Presentable.emptied (h : Presentable given host p) {text : String}
    (hosted : q.host = p.host)
    (configs : q.configs = p.configs) (buttons : q.buttons = []) (error : q.error = some text)
    (worded : text ≠ "") : Presentable given host q where
  hosted := hosted.trans h.hosted
  configs := configs ▸ h.configs
  failed := fun _ => ⟨buttons, text, error, worded⟩
  buttons := ⟨p.configs, h.configs, buttons ▸ drawn_nil _ _⟩

theorem faultText_ne (text : String) : faultText text ≠ "" := by
  unfold faultText
  split
  · decide
  next given =>
    rintro rfl
    exact given rfl

theorem Presentable.loadFailed (h : Presentable given host p) (text : String)
    (record evaluated : Option Nat) :
    Presentable given host (p.loadFailed text record evaluated) :=
  h.emptied rfl rfl rfl rfl (faultText_ne text)

theorem Presentable.cycleFailed (h : Presentable given host p) :
    Presentable given host p.cycleFailed :=
  h.emptied rfl rfl rfl rfl (show cycleFaultText ≠ "" by decide)

theorem Presentable.resolved (h : Presentable given host p) {configs : List Config}
    (gives : given configs) {buttons : List Shown} (drawn : Drawn host configs buttons) :
    Presentable given host (p.resolved buttons) where
  hosted := h.hosted
  configs := h.configs
  failed := nofun
  buttons := ⟨configs, gives, drawn⟩

end Changes

/-! ## What work keeps -/

/-- A session has a pipeline that may be shown. -/
def Presents (n : Nat) (given : List Config → Prop) (host : Action.Host) (s : Session) :
    Prop :=
  ∃ p, s.pipelines[n]? = some p ∧ Presentable given host p

/-- The rules of work that keeps a pipeline presentable. -/
def presenting (n : Nat) (given : List Config → Prop) (host : Action.Host) : Rules where
  inv := Presents n given host
  may := fun s t => Presents n given host s → Presents n given host t
  uses := fun _ => True

section Work

variable {n m : Nat} {given : List Config → Prop} {host : Action.Host} {s t : Session}
  {α : Type}

theorem Presents.of_same (h : Presents n given host s) (same : t.pipelines[n]? = s.pipelines[n]?) :
    Presents n given host t := by
  obtain ⟨p, has, presentable⟩ := h
  exact ⟨p, same.trans has, presentable⟩

theorem Presents.onPipeline (h : Presents n given host s) {g : Pipeline → Pipeline}
    (keeps : ∀ p, Presentable given host p → Presentable given host (g p))
    (same : t.pipelines = s.pipelines) : Presents n given host (t.onPipeline n g) := by
  obtain ⟨p, has, presentable⟩ := h
  exact ⟨g p, Session.getElem?_onPipeline (same ▸ has) g, keeps p presentable⟩

theorem lasting_presenting (n : Nat) (given : List Config → Prop) (host : Action.Host) :
    (presenting n given host).Lasting where
  quiet := fun s t quiet h => h.of_same (by rw [quiet.pipelines])
  trans := fun _ _ _ h h' hs => h' (h hs)
  inv := fun _ _ hs h => h hs

/-- What leaves a pipeline alone keeps it presentable. -/
theorem presenting_of_aside {t : Work α} (h : t.Obeys (aside n)) :
    t.Obeys (presenting n given host) := by
  refine h.mono (fun _ _ => trivial) (fun _ _ _ spared hs => ?_) fun _ _ => trivial
  exact hs.of_same spared.pipeline

theorem presenting_pipeline {f : Pipeline → Work α}
    (h : ∀ p, Presentable given host p → (f p).Obeys (presenting n given host)) :
    (Work.pipeline n >>= f).Obeys (presenting n given host) := by
  intro s hs
  obtain ⟨p, has, presentable⟩ := hs
  show (f (s.outer.pipeline n)).Obeys _
  rw [Session.pipeline_of_getElem? has]
  exact h p presentable

theorem presenting_onPipeline {g : Pipeline → Pipeline} {f : Unit → Work α}
    (keeps : ∀ p, Presentable given host p → Presentable given host (g p))
    (h : (f ()).Obeys (presenting n given host)) :
    (Task.modify (Session.onPipeline n g) >>= f).Obeys (presenting n given host) :=
  obeys_modify (fun _ _ hs => hs.onPipeline keeps rfl) h

theorem resolveOne_returns (c : Config) :
    (resolveOne n c).Returns (Presents n given host)
      fun made => ∀ b, made = .ok (some b) → DrawnFrom host c b := by
  intro s _
  refine (Work.resolve_returns _).bind fun made texts => ?_
  cases made with
  | error f => rintro b ⟨⟩
  | ok resolved =>
      rintro t ⟨p, has, presentable⟩
      show Task.Returns _ _ (Task.bind (Work.resolve (t.outer.pipeline n).evaluated n
        (Expr.holdsFor true (t.outer.pipeline n).host.toSurroundings c.visibility)) _)
      rw [Session.pipeline_of_getElem? has, presentable.hosted]
      refine (Work.resolve_returns _).bind fun shown holds => ?_
      cases shown with
      | false => rintro b ⟨⟩
      | true =>
          rintro b ⟨⟩
          exact ⟨Config.resolve_kept texts, texts, holds, rfl⟩

/-- Configurations make buttons that stem from some of them. -/
theorem resolveEach_returns (cs : List Config) :
    (resolveEach n cs).Returns (Presents n given host)
      fun made => ∀ buttons, made = .ok buttons →
        ∃ drawn : List Config, drawn.Sublist cs ∧ List.Forall₂ (DrawnFrom host) drawn buttons := by
  induction cs with
  | nil =>
      rintro buttons ⟨⟩
      exact ⟨[], .slnil, .nil⟩
  | cons c cs ih =>
      refine (resolveOne_returns c).bind fun made one => ?_
      cases made with
      | error f => exact nofun
      | ok b =>
          refine ih.bind fun rest each => ?_
          cases rest with
          | error f => exact nofun
          | ok bs =>
              rintro buttons ⟨⟩
              obtain ⟨drawn, sub, stems⟩ := each bs rfl
              cases b with
              | none => exact ⟨drawn, sub.cons c, stems⟩
              | some b => exact ⟨c :: drawn, sub.cons_cons c, .cons (one b rfl) stems⟩

theorem presenting_endFailed : (endFailed n).Obeys (presenting n given host) :=
  presenting_onPipeline (fun _ h => h.cycleFailed) trivial

theorem presenting_cycle : (cycle n).Obeys (presenting n given host) := by
  refine presenting_pipeline fun p shown => ?_
  cases p.mayStart with
  | false => trivial
  | true =>
      refine presenting_onPipeline (fun _ h => h.onward rfl rfl rfl nofun) ?_
      cases Config.hash p.configs with
      | error f => trivial
      | ok hash =>
          refine presenting_onPipeline (fun _ h => ⟨h.hosted, h.configs, h.failed, h.buttons⟩) ?_
          cases order : sortByPosition p.configs with
          | error f => exact presenting_endFailed
          | ok sorted =>
              refine Task.Obeys.bind_of_returns (obeys_resolveEach trivial sorted)
                (resolveEach_returns sorted) fun made each => ?_
              cases made with
              | error f => exact presenting_endFailed
              | ok buttons =>
                  obtain ⟨drawn, sub, stems⟩ := each buttons rfl
                  refine presenting_onPipeline (fun q h => ?_) trivial
                  exact h.resolved shown.configs (.of_sorted order sub stems)

theorem presenting_afterLoad (reply : Except StoreFault (Option Nat)) :
    (afterLoad n reply).Obeys (presenting n given host) := by
  cases reply with
  | error f =>
      refine obeys_modify (fun s _ hs => ?_) (obeys_pipeline fun p => trivial)
      exact hs.onPipeline (fun _ h => h.loadFailed _ _ _) rfl
  | ok place =>
      refine obeys_modify (fun s _ hs => ?_) presenting_cycle
      unfold Session.loadedPipeline
      split
      · exact hs.onPipeline (fun _ h => h.onward rfl rfl rfl nofun) rfl
      · exact hs.onPipeline (fun _ h => h.onward rfl rfl rfl nofun) rfl

theorem presenting_run : (run n).Obeys (presenting n given host) := by
  rw [run_eq]
  refine presenting_onPipeline (fun _ h => h.onward rfl rfl rfl nofun) (obeys_pipeline fun p => ?_)
  split
  · refine obeys_modify (fun s _ hs => ?_) presenting_cycle
    exact hs.onPipeline (fun _ h => h.onward rfl rfl rfl nofun) rfl
  · exact ⟨fun _ _ => trivial, presenting_afterLoad⟩

/-- Cycles of other pipelines do it no harm either. -/
theorem presents_cycle (m : Nat) : (cycle m).Obeys (presenting n given host) := by
  by_cases hm : m = n
  · subst hm
    exact presenting_cycle
  · have own : (cycle m).Obeys (rules m given) := obeys_cycle m
    exact presenting_of_aside (obeys_aside own hm)

theorem presents_run (m : Nat) : (run m).Obeys (presenting n given host) := by
  by_cases hm : m = n
  · subst hm
    exact presenting_run
  · exact presenting_of_aside (obeys_aside (obeys_run m) hm)

theorem presenting_reload : (reload n).Obeys (presenting n given host) :=
  ⟨fun _ _ => trivial, fun _ => presenting_run⟩

theorem presenting_setConfigs {configs : List Config} (gives : given configs) :
    (setConfigs n configs).Obeys (presenting n given host) := by
  have replace : (replaceConfigs n configs).Obeys (presenting n given host) :=
    presenting_onPipeline (fun _ h => ⟨h.hosted, gives, h.failed, h.buttons⟩) presenting_cycle
  refine obeys_pipeline fun p => ?_
  split
  · cases Config.hash configs with
    | error f => trivial
    | ok hash =>
        dsimp only
        split
        · trivial
        · exact replace
  · exact replace

theorem presenting_onSaved (payload : Value) :
    (onSaved n payload).Obeys (presenting n given host) := by
  refine obeys_pipeline fun p => ?_
  split
  · exact .bind presenting_reload fun _ => trivial
  · trivial

theorem presenting_call (c : Call) (gives : ∀ configs, c.gives configs → given configs) :
    (c.work n).Obeys (presenting n given host) := by
  cases c with
  | run => exact presenting_run
  | reload => exact presenting_reload
  | setConfigs configs => exact presenting_setConfigs (gives configs rfl)
  | saved payload => exact .bind (presenting_onSaved payload) fun _ => trivial

theorem presenting_tearDown (m : Nat) : (tearDown m).Obeys (presenting n given host) := by
  refine ⟨fun _ _ => trivial, fun _ => obeys_modify (f := .done) (fun s _ hs => ?_) trivial⟩
  by_cases hm : m = n
  · subst hm
    have torn : Presents m given host (s.onPipeline m tornDown) :=
      hs.onPipeline (fun _ h => h.onward rfl rfl rfl nofun) rfl
    exact torn.of_same (by rw [pipelines_tearDown])
  · exact hs.of_same (Spared.tearDown hm s).pipeline

/-- The configurations that an operation gives to a pipeline that is there. -/
def Op.Gives (n : Nat) : Op → List Config → Prop
  | deed m (.call c) => fun configs => m = n ∧ c.gives configs
  | _ => fun _ => False

theorem presenting_op (o : Op) (gives : ∀ configs, o.Gives n configs → given configs) :
    o.work.Obeys (presenting n given host) := by
  cases o with
  | construct p =>
      refine ⟨fun s _ hs => ?_, trivial⟩
      obtain ⟨q, has, presentable⟩ := hs
      exact ⟨q, (Spared.add ⟨q, has⟩ p.built).pipeline.trans has, presentable⟩
  | publish event =>
      refine obeys_publish (lasting_presenting n given host) fun _ _ m _ _ => ?_
      by_cases hm : m = n
      · subst hm
        exact presenting_onSaved _
      · exact presenting_of_aside (obeys_aside (obeys_onSaved m _) hm)
  | deed m d =>
      cases d with
      | tearDown => exact presenting_tearDown m
      | call c =>
          refine .bind ?_ fun _ => trivial
          by_cases hm : m = n
          · subst hm
            exact presenting_call c fun configs h => gives configs ⟨rfl, h⟩
          · exact presenting_of_aside (obeys_aside (obeys_call m c) hm)

end Work

namespace Crowd

/-- The lists of configurations that a pipeline has been built with, or given by acts. -/
def Supplied (n : Nat) (p : Pipeline) (acts : List Act) (configs : List Config) : Prop :=
  configs = p.configs ∨
    ∃ number, Act.op number (.deed n (.call (.setConfigs configs))) ∈ acts

variable {server : Server} {n : Nat} {p : Pipeline} {m : Crowd}

theorem presenting_act {acts : List Act} {act : Act} (hact : act ∈ acts) :
    act.Obeys (presenting n (Supplied n p acts) p.host) := by
  cases act with
  | op number o =>
      refine presenting_op o fun configs gives => ?_
      cases o with
      | construct | publish => exact gives.elim
      | deed n' d =>
          cases d with
          | tearDown => exact gives.elim
          | call c =>
              obtain ⟨rfl, gives⟩ := gives
              cases c with
              | run | reload | saved => exact gives.elim
              | setConfigs configs' =>
                  cases gives
                  exact .inr ⟨number, hact⟩
  | move mv => exact fun _ _ => trivial
  | release | cancel | store => trivial

/-- **At any moment a pipeline is fit to be shown.**  From when it is built, while those who wait
leave it alone, calls of it and of others, saves and teardowns overlap in any way, and the store
answers as it likes.  In the stage error the pipeline has no buttons and a text that is not empty,
and a click on any button leaves the session as it is and says that there is no such button.  Its
buttons stem from one of the lists of configurations that it was given: they come from some of them,
in their stable order by position, each was found to be visible, and when the positions are integers
they do not decrease. -/
theorem presentable_always (has : m.shared.outer.pipelines[n]? = some p.built)
    (apart : ∀ q ∈ m.parked, q.what.Obeys (aside n)) (acts : List Act) :
    let s := (Crowd.after server m acts).shared.outer
    ∃ q, s.pipelines[n]? = some q ∧
      (q.stage = .error → q.buttons = [] ∧ (∃ text, q.error = some text ∧ text ≠ "") ∧
        ∀ index, ∃ outcome, s.clickPipeline n index = (s, .ok outcome) ∧
          outcome.intent = .nothing ∧
          outcome.issues.map (·.code) = ["CLICK_INDEX_INVALID"]) ∧
      ∃ configs, Supplied n p acts configs ∧ Drawn p.host configs q.buttons ∧
        ((∀ c ∈ configs, c.Placed) → q.buttons.Pairwise (·.config.place ≤ ·.config.place)) := by
  intro s
  have start : Bound (presenting n (Supplied n p acts) p.host) m :=
    ⟨⟨p.built, has, presentable_built (.inl rfl)⟩, fun q hq reply =>
      presenting_of_aside (apart q hq reply)⟩
  have lasting := lasting_presenting n (Supplied n p acts) p.host
  have abided : Abided (presenting n (Supplied n p acts) p.host) m (Crowd.after server m acts) :=
    start.after lasting fun act hact => presenting_act hact
  obtain ⟨q, there, presentable⟩ := (abided.bound lasting start.inv).inv
  obtain ⟨configs, supplied, drawn⟩ := presentable.buttons
  refine ⟨q, there, fun failed => ?_, configs, supplied, drawn, drawn.ordered⟩
  obtain ⟨empty, text, error, worded⟩ := presentable.failed failed
  refine ⟨empty, ⟨text, error, worded⟩, fun index => ⟨Action.missed index, ?_, rfl, rfl⟩⟩
  have found : s.pipeline n = q := Session.pipeline_of_getElem? there
  have nothing : (if 0 ≤ index then q.buttons[index.toNat]? else none) = none := by
    rw [empty, List.getElem?_nil, ite_self]
  simp only [Session.clickPipeline, found, nothing]

/-- A session with the form of an account, the store of which holds its answers back. -/
def accountOnly : Crowd :=
  { shared := { outer := {
      store := { owned "Acme" with manual := true }, pipelines := [nameForm] } } }

/-- Two buttons, the second of which is to come first. -/
def twoButtons : List Config :=
  [{ label := .text "\x7bname\x7d", position := .int 2 },
    { label := .text "Docs", position := .int 1 }]

/-- The form loads and is reloaded, so two loads overlap; it is given new buttons meanwhile, and the
first load goes well. -/
def contested : List Act :=
  [.op 1 (.deed 0 (.call .run)), .op 2 (.deed 0 (.call .reload)),
    .op 3 (.deed 0 (.call (.setConfigs twoButtons))), .release 1]

/-- Then the store loses the record, and the second load ends. -/
def lost : List Act :=
  contested ++ [.store { manual := true } (after tended accountOnly contested).shared.outer.shelf,
    .release 2]

theorem contested_presentable :
    (∃ q, (after tended accountOnly contested).shared.outer.pipelines[0]? = some q ∧
      q.stage = .resolved ∧ q.buttons.length = 2 ∧
      q.buttons.Pairwise (·.config.place ≤ ·.config.place)) ∧
    ∃ q, (after tended accountOnly lost).shared.outer.pipelines[0]? = some q ∧
      q.stage = .error ∧ q.buttons = [] ∧ ∃ text, q.error = some text ∧ text ≠ "" := by
  have always := fun acts => @presentable_always tended 0 nameForm accountOnly rfl nofun acts
  constructor
  · have stage : (after tended accountOnly contested).shared.outer.pipelines[0]?.map
        (fun q => (q.stage, q.buttons.length)) = some (.resolved, 2) := by
      decide +kernel
    obtain ⟨q, has, -, configs, supplied, -, ordered⟩ := always contested
    rw [has] at stage
    obtain ⟨resolved, two⟩ := Prod.mk.inj (Option.some.inj stage)
    refine ⟨q, has, resolved, two, ordered ?_⟩
    obtain rfl | ⟨number, hact⟩ := supplied
    · decide
    · obtain ⟨-, rfl⟩ : number = 3 ∧ configs = twoButtons := by simpa [contested] using hact
      decide
  · have stage : (after tended accountOnly lost).shared.outer.pipelines[0]?.map (·.stage) =
        some .error := by
      decide +kernel
    obtain ⟨q, has, safe, -⟩ := always lost
    rw [has] at stage
    have failed : q.stage = .error := Option.some.inj stage
    obtain ⟨empty, worded, -⟩ := safe failed
    exact ⟨q, has, failed, empty, worded⟩

end Crowd

end Pipeline

end Toolbar
