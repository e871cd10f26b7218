/-
# `Toolbar.Proofs.Control.Viewing` — a view, piece by piece

A view asks for its configurations unless it has them, puts down what the query brings, and goes on
with the list at hand: it may give it to a pipeline, and then does what pipelines do (`view_run`,
`showLoaded_run`).  Pipelines keep to rules, and so does whatever else goes on around the control
(`Suits`):

    beside     the list of the control is left alone, and no pipeline is given one
    drawing    besides, one pipeline stays presentable: its buttons stem from lists that it was given

Where a view has come to by its next wait is `Goes`: the list at hand is the one that was, or that of
a query that has ended, and pipelines were given no other.
-/
import Toolbar.Control.View
import Toolbar.Proofs.Pipeline.Presentation

namespace Toolbar

/-- A server tells nothing but what may be answered to a request. -/
structure Server.Honest (server : Server) (May : Request → Value → Prop) : Prop where
  ask : ∀ task wait request s place, (server.supplier.ask task wait request s).2 = some (.ok place) →
    May request ((server.supplier.ask task wait request s).1.shelf.get? place)
  answer : ∀ request s place, (server.answer request s).2 = .ok place →
    May request ((server.answer request s).1.shelf.get? place)

namespace Control

/-- The query for the configurations of a control. -/
def request (s : Session) (k : Control) : Request :=
  .collection s.configEntity (Button.Source.query k.entity k.condition)

/-- The query of one control of a session. -/
def requestOf (c : Nat) (s : Session) : Request :=
  (s.control c).request s

/-- A list is in an answer to a query. -/
def Answers (May : Request → Value → Prop) (request : Request) (configs : List Button.Config) :
    Prop :=
  ∃ v, May request v ∧ Button.Source.ofAnswer v = .ok configs

/-! ## Work beside a control -/

/-- A control has the list that it had. -/
structure SameList (k k' : Control) : Prop where
  configs : k'.configs = k.configs
  configError : k'.configError = k.configError
  loadedCondition : k'.loadedCondition = k.loadedCondition

/-- No pipeline was given configurations. -/
def Ungiven (s t : Session) : Prop :=
  ∀ (n : Nat) (p : Pipeline), s.pipelines[n]? = some p →
    ∃ q, t.pipelines[n]? = some q ∧ q.configs = p.configs

/-- The list of a control was left alone, and no pipeline was given one. -/
structure Beside (c : Nat) (s t : Session) : Prop where
  has : c < s.controls.length → c < t.controls.length
  list : SameList (s.control c) (t.control c)
  ungiven : Ungiven s t

/-- The rules of work that leaves the list of a control alone. -/
def beside (c : Nat) : Rules where
  inv := fun _ => True
  may := Beside c
  uses := fun _ => True

/-- The session with configurations given to a pipeline. -/
def handed (n : Nat) (configs : List Button.Config) (s : Session) : Session :=
  s.onPipeline n fun p => { p with configs }

/-- Rules for the work around a control: they leave its list alone, the calls of pipelines keep to
them, and what they ask of a session stays true when the control changes, when a pipeline is built and
when one is given configurations such as `given` says. -/
structure Suits (R : Rules) (c : Nat) (given : List Button.Config → Prop) : Prop where
  lasting : R.Lasting
  beside : ∀ s t, R.may s t → Beside c s t
  run : ∀ n, (Pipeline.run n).Obeys R
  cycle : ∀ n, (Pipeline.cycle n).Obeys R
  control : ∀ s f, R.inv s → R.inv (s.onControl c f)
  build : ∀ s p, R.inv s → R.inv (s.addPipeline p)
  hand : ∀ s n configs, given configs → R.inv s → R.inv (handed n configs s)

section Beside

variable {c n : Nat} {s t u : Session}

theorem SameList.refl (k : Control) : SameList k k :=
  ⟨rfl, rfl, rfl⟩

theorem SameList.trans {k k' k'' : Control} (h : SameList k k') (h' : SameList k' k'') :
    SameList k k'' where
  configs := h'.configs.trans h.configs
  configError := h'.configError.trans h.configError
  loadedCondition := h'.loadedCondition.trans h.loadedCondition

theorem Ungiven.of_pipelines (h : t.pipelines = s.pipelines) : Ungiven s t :=
  fun _ p hp => ⟨p, by rw [h, hp], rfl⟩

theorem Ungiven.trans (h : Ungiven s t) (h' : Ungiven t u) : Ungiven s u := by
  intro n p hp
  obtain ⟨q, hq, same⟩ := h n p hp
  obtain ⟨r, hr, same'⟩ := h' n q hq
  exact ⟨r, hr, same'.trans same⟩

theorem Beside.of_controls (controls : t.controls = s.controls) (ungiven : Ungiven s t) :
    Beside c s t where
  has := fun h => by rwa [controls]
  list := by
    simp only [Session.control, controls]
    exact .refl _
  ungiven := ungiven

theorem Beside.of_quiet (quiet : s.Quiet t) : Beside c s t :=
  .of_controls quiet.controls (.of_pipelines quiet.pipelines)

theorem Beside.trans (h : Beside c s t) (h' : Beside c t u) : Beside c s u where
  has := fun has => h'.has (h.has has)
  list := h.list.trans h'.list
  ungiven := h.ungiven.trans h'.ungiven

theorem lasting_beside (c : Nat) : (beside c).Lasting where
  quiet := fun _ _ => .of_quiet
  trans := fun _ _ _ => .trans
  inv := fun _ _ _ _ => trivial

theorem Beside.of_serves (h : Pipeline.Serves n (fun _ => False) s t) : Beside c s t := by
  refine .of_controls h.controls fun m p hp => ?_
  by_cases hm : m = n
  · subst hm
    obtain ⟨q, hq, form⟩ := h.own p hp
    exact ⟨q, hq, form.configs.resolve_right fun h => h⟩
  · exact ⟨p, (h.others m hm).trans hp, rfl⟩

theorem obeys_beside {α : Type} {t : Work α} (h : t.Obeys (Pipeline.rules n fun _ => False)) :
    t.Obeys (beside c) :=
  h.mono (fun _ _ => trivial) (fun _ _ _ => .of_serves) fun _ _ => trivial

theorem suits_beside (c : Nat) : Suits (beside c) c fun _ => True where
  lasting := lasting_beside c
  beside := fun _ _ h => h
  run := fun n => obeys_beside (Pipeline.obeys_run n)
  cycle := fun n => obeys_beside (Pipeline.obeys_cycle n)
  control := fun _ _ _ => trivial
  build := fun _ _ _ => trivial
  hand := fun _ _ _ _ _ => trivial

/-- The rules of work that leaves the list of a control alone, and keeps a pipeline presentable. -/
def drawing (c n : Nat) (given : List Button.Config → Prop) (host : Action.Host) : Rules :=
  (beside c).both (Pipeline.presenting n given host)

theorem suits_drawing {given : List Button.Config → Prop} (n : Nat) (host : Action.Host) :
    Suits (drawing c n given host) c given where
  lasting := (lasting_beside c).both (Pipeline.lasting_presenting n given host)
  beside := fun _ _ h => h.1
  run := fun m => .both (obeys_beside (Pipeline.obeys_run m)) (Pipeline.presents_run m)
  cycle := fun m => .both (obeys_beside (Pipeline.obeys_cycle m)) (Pipeline.presents_cycle m)
  control := fun _ _ h => ⟨trivial, h.2.of_same rfl⟩
  build := fun s p h => by
    obtain ⟨-, q, has, presentable⟩ := h
    exact ⟨trivial, q, (Pipeline.Spared.add ⟨q, has⟩ p).pipeline.trans has, presentable⟩
  hand := fun s m configs gives h => by
    refine ⟨trivial, ?_⟩
    by_cases hm : m = n
    · subst hm
      exact h.2.onPipeline (fun _ h => ⟨h.hosted, gives, h.failed, h.buttons⟩) rfl
    · exact h.2.of_same (List.getElem?_modify_ne _ _ hm)

end Beside

/-! ## The parts of a view -/

/-- What a query brings: configurations, or what is shown instead. -/
def fetched : Except StoreFault (Option Nat) → Work (Except Fault (List Button.Config × Option String))
  | .error f => .done (.ok ([], some (if f.text.isEmpty then configFaultText else f.text)))
  | .ok place => do
      let answer ← Work.valueAt place
      return (Button.Source.ofAnswer answer).map fun configs => (configs, none)

/-- A control with a new list at hand. -/
def listed (configs : List Button.Config) (configError : Option String) (k : Control) : Control :=
  { k with configs, configError, loadedCondition := some k.condition }

/-- Puts down what a query has brought. -/
def put (c : Nat) : Except Fault (List Button.Config × Option String) → Work (Except Fault Unit)
  | .error f => .done (.error f)
  | .ok (configs, configError) => do
      Task.modify (Session.onControl c (listed configs configError))
      return .ok ()

/-- Goes on with the list at hand. -/
def goOn (c : Nat) : Except Fault Unit → Work (Except Refusal String)
  | .error f => .done (.error (.value f))
  | .ok () => showLoaded c

/-- What a view does after its query. -/
def afterwards (c : Nat) (reply : Except StoreFault (Option Nat)) : Work (Except Refusal String) :=
  ((fetched reply).bind (put c)).bind (goOn c)

/-- The end of a view. -/
def ended (n : Nat) : Except Fault Unit → Work (Except Refusal String)
  | .error f => .done (.error (.value f))
  | .ok () => do
      let p ← Work.pipeline n
      return .ok (shown p)

/-- The session under a new condition for a control, if one is given. -/
def renamed (c : Nat) (condition : Option String) (s : Session) : Session :=
  match condition with
  | none => s
  | some condition => s.onControl c fun k => { k with condition }

section Parts

variable {c number : Nat} {R : Rules} {given : List Button.Config → Prop}
  {sup : Supplier Nat StoreFault Session} {s : Shared Nat Session}

theorem refresh_run :
    ((refreshConfigs c).bind (goOn c)).run sup number s =
      (if (s.outer.control c).loadedCondition = some (s.outer.control c).condition then showLoaded c
        else .ask (requestOf c s.outer) (afterwards c)).run sup number s := by
  simp only [refreshConfigs, Work.control, bind, Task.bind, Task.run]
  split
  · rfl
  · have loads : loadConfigs c = .look fun s =>
        .ask (requestOf c s.outer) fun reply => (fetched reply).bind (put c) := by
      refine congrArg Task.look (funext fun s => congrArg (Task.ask _) (funext fun reply => ?_))
      rcases reply with f | place
      · rfl
      · refine congrArg Task.look (funext fun s => ?_)
        cases Button.Source.ofAnswer (s.outer.shelf.get? place) <;> rfl
    rw [loads]
    rfl

theorem view_run (condition : Option String) (set : (s.outer.control c).pipeline.isNone = false) :
    (view c condition).run sup number s =
      (if ((renamed c condition s.outer).control c).loadedCondition =
          some ((renamed c condition s.outer).control c).condition then showLoaded c
        else .ask (requestOf c (renamed c condition s.outer)) (afterwards c)).run sup number
          { s with outer := renamed c condition s.outer } := by
  cases condition with
  | none =>
      simp only [view, Work.control, bind, Task.bind, Task.run, set, Bool.false_eq_true, if_false]
      exact refresh_run
  | some condition =>
      simp only [view, Work.control, bind, Task.bind, Task.run, set, Bool.false_eq_true, if_false]
      exact refresh_run (s := { s with outer := renamed c (some condition) s.outer })

theorem view_run_unset (condition : Option String)
    (unset : (s.outer.control c).pipeline.isNone = true) :
    (view c condition).run sup number s = (s, .finished (.error .notSetUp)) := by
  simp only [view, Work.control, bind, Task.bind, Task.run, unset, if_true]
  rfl

/-- New configurations are given to the pipeline at once, if at all. -/
theorem setConfigs_run (suits : Suits R c given) (n number : Nat) (configs : List Button.Config)
    (sup : Supplier Nat StoreFault Session) (s : Shared Nat Session)
    {k : Except Fault (List Button.Shown) → Work (Except Refusal String)}
    (hk : ∀ r, (k r).Obeys R) :
    ∃ (t : Work (Except Refusal String)) (outer : Session), t.Obeys R ∧
      ((Pipeline.setConfigs n configs).bind k).run sup number s = t.run sup number { s with outer } ∧
      (outer = s.outer ∨ outer = handed n configs s.outer) := by
  have replaces : ∃ (t : Work (Except Refusal String)) (outer : Session), t.Obeys R ∧
      ((Pipeline.replaceConfigs n configs).bind k).run sup number s =
        t.run sup number { s with outer } ∧ (outer = s.outer ∨ outer = handed n configs s.outer) :=
    ⟨(Pipeline.cycle n).bind k, _, .bind (suits.cycle n) hk, rfl, .inr rfl⟩
  have stays (r : Except Fault (List Button.Shown)) :
      ∃ (t : Work (Except Refusal String)) (outer : Session), t.Obeys R ∧
        (k r).run sup number s = t.run sup number { s with outer } ∧
        (outer = s.outer ∨ outer = handed n configs s.outer) :=
    ⟨k r, s.outer, hk r, rfl, .inl rfl⟩
  simp only [Pipeline.setConfigs, Work.pipeline, bind, Task.bind, Task.run]
  split
  · cases Button.Config.hash configs with
    | error f => exact stays _
    | ok hash =>
        dsimp only
        split
        · exact stays _
        · exact replaces
  · exact replaces

/-- What a view does once its list is there: it may give the list to a pipeline, and then does what
keeps to the rules. -/
theorem showLoaded_run (suits : Suits R c given) (number : Nat)
    (sup : Supplier Nat StoreFault Session) (s : Shared Nat Session) :
    ∃ (t : Work (Except Refusal String)) (outer : Session), t.Obeys R ∧
      (showLoaded c).run sup number s = t.run sup number { s with outer } ∧
      (outer = s.outer ∨ (s.outer.control c).configError = none ∧
        ∃ n, outer = handed n (s.outer.control c).configs s.outer) := by
  have ends (n : Nat) (r : Except Fault Unit) : (ended n r).Obeys R := by
    cases r with
    | error f => trivial
    | ok u => exact fun _ _ => trivial
  have assoc (n : Nat) (t : Work (Except Fault (List Button.Shown))) :
      (t.bind fun r => .done (r.map fun _ => ())).bind (ended n) =
        t.bind fun r => ended n (r.map fun _ => ()) :=
    Task.bind_assoc _ _ _
  simp only [showLoaded, Work.control, bind, Task.bind, Task.run]
  split
  · exact ⟨.done _, s.outer, trivial, rfl, .inl rfl⟩
  · exact ⟨.done _, s.outer, trivial, rfl, .inl rfl⟩
  next n error _ =>
    simp only [advance, Work.pipeline, bind, Task.bind, Task.run]
    split
    · refine ⟨(Pipeline.run n).bind fun r => ended n (r.map fun _ => ()),
        handed n (s.outer.control c).configs s.outer, ?_, ?_, .inr ⟨error, n, rfl⟩⟩
      · exact .bind (suits.run n) fun r => ends n _
      · rw [← assoc n]
        rfl
    · split
      · obtain ⟨t, outer, obeys, runs, hands⟩ := setConfigs_run suits n number
          (s.outer.control c).configs sup s fun r => ends n (r.map fun _ => ())
        refine ⟨t, outer, obeys, ?_, hands.imp_right fun h => ⟨error, n, h⟩⟩
        rw [← runs, ← assoc n]
        rfl
      · exact ⟨_, s.outer, ends n (.ok ()), rfl, .inl rfl⟩

end Parts

/-! ## What is at hand, and what is given -/

/-- A control has a list at hand. -/
structure HasList (k : Control) : Prop where
  loaded : k.loadedCondition ≠ none
  sound : k.configError = none

/-- Pipelines were given no list but the one that is at hand then. -/
def Given (c : Nat) (s t : Session) : Prop :=
  ∀ (n : Nat) (p : Pipeline), s.pipelines[n]? = some p → ∃ q, t.pipelines[n]? = some q ∧
    (q.configs = p.configs ∨ HasList (t.control c) ∧ q.configs = (t.control c).configs)

/-- The reply to a query is a list, or that there is none. -/
def Brings (s : Session) (reply : Except StoreFault (Option Nat)) : Prop :=
  ∀ place, reply = .ok place → ∃ configs, Button.Source.ofAnswer (s.shelf.get? place) = .ok configs

/-- Who waits is a view that waits for its query. -/
def Asks (c : Nat) (w : Wait Nat StoreFault Session (Except Refusal String)) : Prop :=
  ∃ request, w = .asking request (afterwards c)

/-- Who waits goes on after a query of a control, or keeps to the rules. -/
def Attends (R : Rules) (c : Nat) (w : Wait Nat StoreFault Session (Except Refusal String)) : Prop :=
  Asks c w ∨ w.Obeys R

/-- Where work has come to from a session: the list at hand is the one that was, and no query has
ended, or it is that of a query that has. -/
structure Goes (R : Rules) (May : Request → Value → Prop) (c : Nat) (Ended : Request → Prop)
    (s : Session) (r : Shared Nat Session × Progress Nat StoreFault Session (Except Refusal String)) :
    Prop where
  has : c < r.1.outer.controls.length
  list : (SameList (s.control c) (r.1.outer.control c) ∧ ∀ request, ¬ Ended request) ∨
    ∃ request, Ended request ∧
      (HasList (r.1.outer.control c) → Answers May request (r.1.outer.control c).configs)
  given : Given c s r.1.outer
  inv : R.inv r.1.outer
  waits : ∀ w, r.2 = .parked w → Attends R c w

section Going

variable {R : Rules} {given : List Button.Config → Prop} {May : Request → Value → Prop}
  {server : Server} {c number : Nat} {Ended : Request → Prop} {s t u : Session} {σ : Shared Nat Session}
  {r : Shared Nat Session × Progress Nat StoreFault Session (Except Refusal String)}

theorem SameList.hasList {k k' : Control} (same : SameList k k') (h : HasList k) : HasList k' :=
  ⟨same.loadedCondition ▸ h.loaded, same.configError ▸ h.sound⟩

theorem SameList.symm {k k' : Control} (same : SameList k k') : SameList k' k :=
  ⟨same.configs.symm, same.configError.symm, same.loadedCondition.symm⟩

theorem Given.of_ungiven (h : Ungiven s t) : Given c s t := by
  intro n p hp
  obtain ⟨q, hq, same⟩ := h n p hp
  exact ⟨q, hq, .inl same⟩

theorem Given.behind (before : Ungiven s t) (h : Given c t u) : Given c s u := by
  intro n p hp
  obtain ⟨q, hq, same⟩ := before n p hp
  obtain ⟨v, hv, given⟩ := h n q hq
  exact ⟨v, hv, given.imp_left fun same' => same'.trans same⟩

theorem Given.beside (h : Given c s t) (after : Beside c t u) : Given c s u := by
  intro n p hp
  obtain ⟨q, hq, given⟩ := h n p hp
  obtain ⟨v, hv, same⟩ := after.ungiven n q hq
  refine ⟨v, hv, given.imp same.trans fun ⟨hasList, hands⟩ => ⟨after.list.hasList hasList, ?_⟩⟩
  rw [same, hands, after.list.configs]

theorem Goes.behind (before : Beside c s t) (h : Goes R May c Ended t r) :
    Goes R May c Ended s r where
  has := h.has
  list := h.list.imp_left fun ⟨same, nobody⟩ => ⟨before.list.trans same, nobody⟩
  given := h.given.behind before.ungiven
  inv := h.inv
  waits := h.waits

theorem goes_of_reaches (suits : Suits R c given) (reaches : R.Reaches σ r) (inv : R.inv σ.outer)
    (has : c < σ.outer.controls.length) (none : ∀ request, ¬ Ended request) :
    Goes R May c Ended σ.outer r := by
  have kept : Beside c σ.outer r.1.outer := suits.beside _ _ reaches.between.may
  exact ⟨kept.has has, .inl ⟨kept.list, none⟩, .of_ungiven kept.ungiven,
    reaches.between.inv suits.lasting inv, fun w hw => .inr (reaches.waits w hw)⟩

/-- A list is given to a pipeline, and the control keeps it. -/
theorem given_handed (n : Nat) (hasList : HasList (s.control c)) :
    Given c s (handed n (s.control c).configs s) := by
  intro m p hp
  by_cases hm : m = n
  · subst hm
    exact ⟨_, Session.getElem?_onPipeline hp _, .inr ⟨hasList, rfl⟩⟩
  · exact ⟨p, (List.getElem?_modify_ne _ _ (Ne.symm hm)).trans hp, .inl rfl⟩

theorem control_onControl (has : c < s.controls.length) (f : Control → Control) :
    (s.onControl c f).control c = f (s.control c) := by
  simp [Session.onControl, Session.control, has]

variable (server number) (suits : Suits R c given)
include suits

/-- A view goes on with the list at hand. -/
theorem goes_showLoaded (inv : R.inv σ.outer) (has : c < σ.outer.controls.length)
    (loaded : (σ.outer.control c).loadedCondition ≠ none)
    (gives : HasList (σ.outer.control c) → given (σ.outer.control c).configs)
    (none : ∀ request, ¬ Ended request) :
    Goes R May c Ended σ.outer ((showLoaded c).run server.supplier number σ) := by
  obtain ⟨t, outer, obeys, runs, hands⟩ := showLoaded_run suits number server.supplier σ
  have reaches (inv : R.inv outer) :
      R.Reaches { σ with outer } (t.run server.supplier number { σ with outer }) :=
    obeys.run suits.lasting inv
  rw [runs]
  rcases hands with rfl | ⟨error, n, rfl⟩
  · exact goes_of_reaches suits (reaches inv) inv has none
  · have hands := suits.hand _ n _ (gives ⟨loaded, error⟩) inv
    have kept := suits.beside _ _ (reaches hands).between.may
    exact ⟨kept.has has, .inl ⟨kept.list, none⟩, (given_handed n ⟨loaded, error⟩).beside kept,
      (reaches hands).between.inv suits.lasting hands, fun w hw => .inr ((reaches hands).waits w hw)⟩

/-- A list that a query has brought is put down, and the view goes on with it. -/
theorem goes_listed (inv : R.inv σ.outer) (has : c < σ.outer.controls.length) {request : Request}
    (ended : Ended request) (configs : List Button.Config) (configError : Option String)
    (answers : configError = none → Answers May request configs)
    (gives : configError = none → given configs) :
    Goes R May c Ended σ.outer ((showLoaded c).run server.supplier number
      { σ with outer := σ.outer.onControl c (listed configs configError) }) := by
  have now := control_onControl has (listed configs configError)
  have goes : Goes R May c (fun _ => False) (σ.outer.onControl c (listed configs configError))
      ((showLoaded c).run server.supplier number
        { σ with outer := σ.outer.onControl c (listed configs configError) }) := by
    refine goes_showLoaded server number suits (σ := { σ with outer := _ })
      (suits.control _ _ inv) ?_ ?_ ?_ fun _ h => h
    · simpa [Session.onControl] using has
    · show ((σ.outer.onControl c (listed configs configError)).control c).loadedCondition ≠ none
      rw [now]
      exact nofun
    · show HasList ((σ.outer.onControl c (listed configs configError)).control c) →
        given ((σ.outer.onControl c (listed configs configError)).control c).configs
      rw [now]
      exact fun hasList => gives hasList.sound
  obtain ⟨same, -⟩ | ⟨_, ⟨⟩, -⟩ := goes.list
  refine ⟨goes.has, .inr ⟨request, ended, fun hasList => ?_⟩, goes.given.behind (.of_pipelines rfl),
    goes.inv, goes.waits⟩
  rw [now] at same
  rw [same.configs]
  exact answers (same.symm.hasList hasList).sound

/-- A view goes on after its query. -/
theorem goes_afterwards (inv : R.inv σ.outer) (has : c < σ.outer.controls.length)
    {request : Request} {reply : Except StoreFault (Option Nat)}
    (may : ∀ place, reply = .ok place → May request (σ.outer.shelf.get? place))
    (brings : Brings σ.outer reply → Ended request)
    (empty : ¬ Brings σ.outer reply → ∀ request, ¬ Ended request)
    (gives : ∀ request configs, Ended request → Answers May request configs → given configs) :
    Goes R May c Ended σ.outer ((afterwards c reply).run server.supplier number σ) := by
  rcases reply with f | place
  · exact goes_listed server number suits inv has (brings nofun) [] (some _) nofun nofun
  · have runs : (afterwards c (.ok place)).run server.supplier number σ =
        ((put c ((Button.Source.ofAnswer (σ.outer.shelf.get? place)).map fun configs =>
          (configs, none))).bind (goOn c)).run server.supplier number σ := rfl
    rw [runs]
    cases answer : Button.Source.ofAnswer (σ.outer.shelf.get? place) with
    | error f =>
        refine ⟨has, .inl ⟨.refl _, empty fun h => ?_⟩, .of_ungiven (.of_pipelines rfl), inv, nofun⟩
        obtain ⟨configs, hconfigs⟩ := h place rfl
        cases answer.symm.trans hconfigs
    | ok configs =>
        have ended : Ended request := brings (by rintro _ ⟨⟩; exact ⟨configs, answer⟩)
        have answers : Answers May request configs := ⟨_, may place rfl, answer⟩
        exact goes_listed server number suits inv has ended configs none (fun _ => answers)
          fun _ => gives request configs ended answers

end Going

end Control

end Toolbar
