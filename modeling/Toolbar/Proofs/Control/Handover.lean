/-
# `Toolbar.Proofs.Control.Handover` — whose buttons a control shows

A control asks for its configurations under an entity and a condition, waits, and then hands the list
to its pipeline.  Meanwhile it may be set up for another form, or be viewed under another condition,
and more queries may be under way.  All that it remembers of a list is the condition that it has when
the query ends, so it cannot tell whether the list at hand is its own:

    what happens                                   the list at hand
    a query ends                                   is that of this query, whatever its names
    the control is renamed, to another condition   is asked for again by the next view
    the control is renamed, but for its condition  is taken for its own

So the lists of a control are those of the query that ended last (`Sound.shown`), and they are its own
if that was the query for the names that it has now (`shows_own`).  It need not be, as a control that
is set up for another form under the same condition shows (`Latest.setUp`).  A pipeline that is at
work is not given the list at hand, so its bar may be that of an earlier query (`Draws`).
-/
import Mathlib.Data.List.Induction
import Toolbar.Proofs.Control.Viewing
import Toolbar.Proofs.Session.Supply

namespace Toolbar

namespace Control

/-! ## A control at work -/

/-- The work that is under way while a control is used. -/
abbrev Desk := Machine Nat StoreFault Session (Except Refusal String)

namespace Desk

/-- What happens next to a control, or beside it. -/
inductive Act where
  | init (entity recordId condition : String)
  | view (number : Nat) (condition : Option String)
  /-- Other work, that gives no pipeline a list. -/
  | work (number : Nat) (t : Work (Except Refusal String))
  | release (wait : Nat)
  | cancel (task : Nat)
  /-- The cache is used past everybody. -/
  | move (m : Move Nat)

section

variable (server : Server) (c : Nat)

/-- After an act. -/
def step (m : Desk) : Act → Desk
  | .init entity recordId condition =>
      { m with shared := ((setUp c entity recordId condition).run server.supplier 0 m.shared).1 }
  | .view number condition => (m.start server.supplier number (view c condition)).1
  | .work number t => (m.start server.supplier number t).1
  | .release wait => (m.release server.supplier server.answer wait).1
  | .cancel task => (m.cancel task).1
  | .move mv => { m with shared := (mv.apply m.shared).1 }

/-- After acts. -/
def after (m : Desk) (acts : List Act) : Desk :=
  acts.foldl (step server c) m

/-- A query of a control ends with an act, and has brought a list or that there is none: it is
answered at once, or later. -/
inductive Ends (m : Desk) : Act → Request → Prop
  | atOnce {number : Nat} {condition : Option String} {s outer : Session}
      {reply : Except StoreFault (Option Nat)} :
      (m.shared.outer.control c).pipeline.isNone = false → s = renamed c condition m.shared.outer →
      (s.control c).loadedCondition ≠ some (s.control c).condition →
      server.supplier.ask number (m.shared.waits + 1) (requestOf c s) s = (outer, some reply) →
      Brings outer reply → Ends m (.view number condition) (requestOf c s)
  | later {wait : Nat} {q : Parked Nat StoreFault Session (Except Refusal String)}
      {request : Request} :
      m.parked.find? (·.wait == wait) = some q → q.what = .asking request (afterwards c) →
      Brings (server.answer request m.shared.outer).1 (server.answer request m.shared.outer).2 →
      Ends m (.release wait) request

/-- The query that ended last in a run. -/
inductive Latest (m : Desk) : List Act → Request → Prop
  | ended {acts : List Act} {act : Act} {request : Request} :
      Ends server c (after server c m acts) act request → Latest m (acts ++ [act]) request
  | kept {acts : List Act} {act : Act} {request : Request} : Latest m acts request →
      (∀ other, ¬ Ends server c (after server c m acts) act other) → Latest m (acts ++ [act]) request

end

section Steps

variable {R : Rules} {given : List Button.Config → Prop} {May : Request → Value → Prop}
  {server : Server} {c : Nat} {m : Desk}

/-- No two queries end with one act. -/
theorem Ends.unique {act : Act} {request other : Request} (h : Ends server c m act request)
    (h' : Ends server c m act other) : request = other := by
  cases h with
  | atOnce _ renames =>
      cases h' with
      | atOnce _ renames' => rw [renames, renames']
  | later finds what =>
      cases h' with
      | later finds' what' =>
          cases finds.symm.trans finds'
          cases what.symm.trans what'
          rfl

theorem Latest.unique {acts : List Act} {request other : Request}
    (h : Latest server c m acts request) (h' : Latest server c m acts other) : request = other := by
  induction h with
  | ended ends =>
      generalize happened : _ ++ [_] = acts at h'
      cases h' with
      | ended ends' =>
          obtain ⟨rfl, ⟨⟩⟩ := List.append_inj' happened rfl
          exact ends.unique ends'
      | kept _ none =>
          obtain ⟨rfl, ⟨⟩⟩ := List.append_inj' happened rfl
          exact absurd ends (none _)
  | kept _ none ih =>
      generalize happened : _ ++ [_] = acts at h'
      cases h' with
      | ended ends' =>
          obtain ⟨rfl, ⟨⟩⟩ := List.append_inj' happened rfl
          exact absurd ends' (none _)
      | kept h' _ =>
          obtain ⟨rfl, ⟨⟩⟩ := List.append_inj' happened rfl
          exact ih h'

/-- What an act comes to. -/
structure Comes (R : Rules) (May : Request → Value → Prop) (server : Server) (c : Nat) (m : Desk)
    (act : Act) : Prop where
  has : c < (step server c m act).shared.outer.controls.length
  list : (SameList (m.shared.outer.control c) ((step server c m act).shared.outer.control c) ∧
      ∀ request, ¬ Ends server c m act request) ∨
    ∃ request, Ends server c m act request ∧
      (HasList ((step server c m act).shared.outer.control c) →
        Answers May request ((step server c m act).shared.outer.control c).configs)
  given : Given c m.shared.outer (step server c m act).shared.outer
  inv : R.inv (step server c m act).shared.outer
  waits : ∀ q ∈ (step server c m act).parked, q ∈ m.parked ∨ Attends R c q.what

/-- Work has gone on while those in `rest` wait. -/
theorem Comes.of_goes {act : Act}
    {r : Shared Nat Session × Progress Nat StoreFault Session (Except Refusal String)}
    (goes : Goes R May c (Ends server c m act) m.shared.outer r)
    {rest : List (Parked Nat StoreFault Session (Except Refusal String))}
    (sub : rest.Sublist m.parked) {before : Shared Nat Session} {number : Nat}
    (records : step server c m act = (Machine.record ⟨before, rest⟩ number r).1) :
    Comes R May server c m act := by
  have shared : (step server c m act).shared = r.1 := by
    rw [records, Machine.record_shared]
  refine ⟨?_, ?_, ?_, ?_, fun q hq => ?_⟩
  · rw [shared]
    exact goes.has
  · rw [shared]
    exact goes.list
  · rw [shared]
    exact goes.given
  · rw [shared]
    exact goes.inv
  · rw [records] at hq
    obtain hq | ⟨hw, -, -⟩ := Machine.mem_record hq
    · exact .inl (sub.subset hq)
    · exact .inr (goes.waits _ hw)

/-- Nothing has happened to the list, and some of those who waited may have gone. -/
theorem Comes.of_beside {act : Act} (has : c < m.shared.outer.controls.length)
    (kept : Beside c m.shared.outer (step server c m act).shared.outer)
    (inv : R.inv (step server c m act).shared.outer)
    (none : ∀ request, ¬ Ends server c m act request)
    (sub : (step server c m act).parked.Sublist m.parked) : Comes R May server c m act where
  has := kept.has has
  list := .inl ⟨kept.list, none⟩
  given := .of_ungiven kept.ungiven
  inv := inv
  waits := fun _ hq => .inl (sub.subset hq)

theorem beside_onControl (has : c < m.shared.outer.controls.length) {f : Control → Control}
    (same : SameList (m.shared.outer.control c) (f (m.shared.outer.control c))) :
    Beside c m.shared.outer (m.shared.outer.onControl c f) where
  has := fun _ => by simpa [Session.onControl] using has
  list := by rwa [control_onControl has]
  ungiven := .of_pipelines rfl

theorem beside_renamed (has : c < m.shared.outer.controls.length) (condition : Option String) :
    Beside c m.shared.outer (renamed c condition m.shared.outer) := by
  cases condition with
  | none => exact .of_controls rfl (.of_pipelines rfl)
  | some condition => exact beside_onControl has ⟨rfl, rfl, rfl⟩

theorem inv_renamed (suits : Suits R c given) (inv : R.inv m.shared.outer)
    (condition : Option String) : R.inv (renamed c condition m.shared.outer) := by
  cases condition with
  | none => exact inv
  | some condition => exact suits.control _ _ inv

theorem comes_init (suits : Suits R c given) (inv : R.inv m.shared.outer)
    (has : c < m.shared.outer.controls.length) (entity recordId condition : String) :
    Comes R May server c m (.init entity recordId condition) := by
  have named := beside_onControl has (f := fun k => { k with
    entity, recordId, condition, pipeline := some m.shared.outer.pipelines.length }) ⟨rfl, rfl, rfl⟩
  refine .of_beside has (.trans named ?_) (suits.build _ _ (suits.control _ _ inv))
    (by rintro _ ⟨⟩) (.refl _)
  refine .of_controls rfl fun n p hp => ⟨p, ?_, rfl⟩
  exact (List.getElem?_append_left (List.getElem?_eq_some_iff.mp hp).1).trans hp

theorem comes_view (suits : Suits R c given) (honest : server.Honest May)
    (inv : R.inv m.shared.outer) (has : c < m.shared.outer.controls.length) (number : Nat)
    (condition : Option String)
    (gives : HasList (m.shared.outer.control c) → given (m.shared.outer.control c).configs)
    (brought : ∀ request configs, Ends server c m (.view number condition) request →
      Answers May request configs → given configs) :
    Comes R May server c m (.view number condition) := by
  cases set : (m.shared.outer.control c).pipeline.isNone with
  | true =>
      have stays : step server c m (.view number condition) = m := by
        simp only [step, Machine.start, view_run_unset condition set]
        rfl
      refine .of_beside has ?_ ?_ ?_ ?_
      · rw [stays]
        exact .of_controls rfl (.of_pipelines rfl)
      · rwa [stays]
      · rintro _ ⟨set', -⟩
        cases set.symm.trans set'
      · rw [stays]
  | false =>
      have before := beside_renamed has condition
      have renames := inv_renamed suits inv condition
      refine .of_goes (.behind before ?_) (.refl _)
        (congrArg (fun r => (Machine.record m number r).1) (view_run condition set))
      split
      next loaded =>
        refine goes_showLoaded server number suits
          (σ := { m.shared with outer := renamed c condition m.shared.outer }) renames
          (before.has has) ?_ (fun hasList => ?_) ?_
        · rw [loaded]
          exact Option.some_ne_none _
        · rw [before.list.configs]
          exact gives (before.list.symm.hasList hasList)
        · rintro _ ⟨-, rfl, unloaded, -⟩
          exact unloaded loaded
      next unloaded =>
        have quiet := server.ask_quiet number (m.shared.waits + 1)
          (requestOf c (renamed c condition m.shared.outer)) (renamed c condition m.shared.outer)
        have asked := Beside.of_quiet (c := c) quiet
        have asking := suits.lasting.inv _ _ renames (suits.lasting.quiet _ _ quiet)
        have may := honest.ask number (m.shared.waits + 1)
          (requestOf c (renamed c condition m.shared.outer)) (renamed c condition m.shared.outer)
        simp only [Task.run]
        split
        next outer reply hask =>
          rw [hask] at asked asking may
          refine .behind asked (goes_afterwards server number suits (σ := { m.shared with outer })
            asking (asked.has (before.has has))
            (fun place hplace => may place (congrArg some hplace))
            (fun brings => .atOnce set rfl unloaded hask brings) ?_ brought)
          rintro empty _ ⟨-, rfl, -, hask', brings⟩
          cases hask.symm.trans hask'
          exact empty brings
        next outer hask =>
          rw [hask] at asked asking
          refine ⟨asked.has (before.has has), .inl ⟨asked.list, ?_⟩, .of_ungiven asked.ungiven,
            asking, ?_⟩
          · rintro _ ⟨-, rfl, -, hask', -⟩
            cases hask.symm.trans hask'
          · rintro _ ⟨⟩
            exact .inl ⟨_, rfl⟩

theorem comes_release (suits : Suits R c given) (honest : server.Honest May)
    (inv : R.inv m.shared.outer) (has : c < m.shared.outer.controls.length)
    (attends : ∀ q ∈ m.parked, Attends R c q.what) (wait : Nat)
    (brought : ∀ request configs, Ends server c m (.release wait) request →
      Answers May request configs → given configs) :
    Comes R May server c m (.release wait) := by
  cases finds : m.parked.find? (·.wait == wait) with
  | none =>
      have stays : step server c m (.release wait) = m := by
        simp only [step, Machine.release, finds]
      refine .of_beside has ?_ ?_ ?_ ?_
      · rw [stays]
        exact .of_controls rfl (.of_pipelines rfl)
      · rwa [stays]
      · rintro _ (_ | ⟨finds', -⟩)
        cases finds.symm.trans finds'
      · rw [stays]
  | some q =>
      have records : step server c m (.release wait) = (Machine.record
          ⟨m.shared, m.parked.filter (·.wait != wait)⟩ q.task (server.resume q m.shared)).1 := by
        simp only [step, Machine.release, finds]
        rfl
      refine .of_goes ?_ List.filter_sublist records
      by_cases loads : Asks c q.what
      · obtain ⟨request, what⟩ := loads
        have quiet := server.answer_quiet request m.shared.outer
        have answered := Beside.of_quiet (c := c) quiet
        have resumes : server.resume q m.shared =
            (afterwards c (server.answer request m.shared.outer).2).run server.supplier q.task
              { m.shared with outer := (server.answer request m.shared.outer).1 } := by
          simp only [Server.resume, Machine.resume, what]
        rw [resumes]
        refine .behind answered (goes_afterwards server q.task suits
          (σ := { m.shared with outer := (server.answer request m.shared.outer).1 })
          (suits.lasting.inv _ _ inv (suits.lasting.quiet _ _ quiet)) (answered.has has)
          (honest.answer request m.shared.outer) (fun brings => .later finds what brings) ?_ brought)
        rintro empty _ (_ | ⟨finds', what', brings⟩)
        cases finds.symm.trans finds'
        cases what.symm.trans what'
        exact empty brings
      · have obeys := (attends q (List.mem_of_find?_eq_some finds)).resolve_left loads
        refine goes_of_reaches suits (obeys.wake suits.lasting inv) inv has ?_
        rintro request (_ | ⟨finds', what, -⟩)
        cases finds.symm.trans finds'
        exact loads ⟨request, what⟩

theorem comes_act (suits : Suits R c given) (honest : server.Honest May)
    (inv : R.inv m.shared.outer) (has : c < m.shared.outer.controls.length)
    (attends : ∀ q ∈ m.parked, Attends R c q.what) (act : Act)
    (works : ∀ number t, act = .work number t → t.Obeys R)
    (gives : HasList (m.shared.outer.control c) → given (m.shared.outer.control c).configs)
    (brought : ∀ request configs, Ends server c m act request → Answers May request configs →
      given configs) :
    Comes R May server c m act := by
  cases act with
  | init entity recordId condition => exact comes_init suits inv has entity recordId condition
  | view number condition => exact comes_view suits honest inv has number condition gives brought
  | work number t =>
      have goes : Goes R May c (Ends server c m (.work number t)) m.shared.outer
          (t.run server.supplier number m.shared) :=
        goes_of_reaches suits ((works number t rfl).run suits.lasting inv) inv has (by rintro _ ⟨⟩)
      exact .of_goes goes (.refl _) rfl
  | release wait => exact comes_release suits honest inv has attends wait brought
  | cancel task =>
      have same : (step server c m (.cancel task)).shared.outer = m.shared.outer := by
        simp only [step, Machine.cancel]
        split
        · rfl
        next q _ => exact (Machine.giveUp_quiet q m.shared).1
      refine .of_beside has ?_ (by rwa [same]) (by rintro _ ⟨⟩) ?_
      · rw [same]
        exact .of_controls rfl (.of_pipelines rfl)
      · simp only [step, Machine.cancel]
        split
        · exact .refl _
        · exact List.filter_sublist
  | move mv =>
      have same : (step server c m (.move mv)).shared.outer = m.shared.outer := mv.apply_outer _
      refine .of_beside has ?_ (by rwa [same]) (by rintro _ ⟨⟩) (.refl _)
      rw [same]
      exact .of_controls rfl (.of_pipelines rfl)

/-- Who is held back waits for the list of the control under its new names. -/
theorem parked_view {number : Nat} {condition : Option String}
    (set : (m.shared.outer.control c).pipeline.isNone = false)
    (unloaded : ((renamed c condition m.shared.outer).control c).loadedCondition ≠
      some ((renamed c condition m.shared.outer).control c).condition)
    {outer : Session} (held : server.supplier.ask number (m.shared.waits + 1)
      (requestOf c (renamed c condition m.shared.outer)) (renamed c condition m.shared.outer) =
        (outer, none)) :
    (step server c m (.view number condition)).parked = m.parked ++ [⟨m.shared.waits + 1, number,
      .asking (requestOf c (renamed c condition m.shared.outer)) (afterwards c)⟩] := by
  simp only [step, Machine.start, view_run condition set, if_neg unloaded, Task.run, held]
  rfl

theorem after_concat (m : Desk) (acts : List Act) (act : Act) :
    after server c m (acts ++ [act]) = step server c (after server c m acts) act :=
  List.foldl_concat _ _ _ _

/-- A list is in an answer to the query that ended last, after all of these acts or some of them. -/
def Answered (May : Request → Value → Prop) (server : Server) (c : Nat) (m : Desk) (acts : List Act)
    (configs : List Button.Config) : Prop :=
  ∃ past request, past <+: acts ∧ Latest server c m past request ∧ Answers May request configs

theorem Answered.mono {acts acts' : List Act} {configs : List Button.Config} (sub : acts <+: acts')
    (h : Answered May server c m acts configs) : Answered May server c m acts' configs := by
  obtain ⟨past, request, early, latest, answers⟩ := h
  exact ⟨past, request, early.trans sub, latest, answers⟩

/-- What all runs keep: the list at hand is that of the query that ended last, and who waits goes on
after a query or keeps to the rules. -/
structure Sound (R : Rules) (May : Request → Value → Prop) (server : Server) (c : Nat) (m : Desk)
    (acts : List Act) : Prop where
  has : c < (after server c m acts).shared.outer.controls.length
  list : HasList ((after server c m acts).shared.outer.control c) →
    ∃ request, Latest server c m acts request ∧
      Answers May request ((after server c m acts).shared.outer.control c).configs
  inv : R.inv (after server c m acts).shared.outer
  attends : ∀ q ∈ (after server c m acts).parked, Attends R c q.what

theorem Sound.initial {s : Shared Nat Session} (has : c < s.outer.controls.length)
    (unloaded : (s.outer.control c).loadedCondition = none) :
    Sound (beside c) May server c { shared := s } [] where
  has := has
  list := fun hasList => absurd unloaded hasList.loaded
  inv := trivial
  attends := nofun

theorem Sound.concat {acts : List Act} {act : Act} (h : Sound R May server c m acts)
    (comes : Comes R May server c (after server c m acts) act) :
    Sound R May server c m (acts ++ [act]) := by
  refine ⟨?_, ?_, ?_, ?_⟩ <;> rw [after_concat]
  · exact comes.has
  · intro hasList
    rcases comes.list with ⟨same, none⟩ | ⟨request, ends, answers⟩
    · obtain ⟨request, latest, answers⟩ := h.list (same.symm.hasList hasList)
      refine ⟨request, .kept latest none, ?_⟩
      rwa [same.configs]
    · exact ⟨request, .ended ends, answers hasList⟩
  · exact comes.inv
  · intro q hq
    exact (comes.waits q hq).elim (h.attends q) fun attends => attends

theorem Sound.comes {acts : List Act} (h : Sound R May server c m acts) (suits : Suits R c given)
    (honest : server.Honest May) (act : Act)
    (works : ∀ number t, act = .work number t → t.Obeys R)
    (gives : ∀ configs, Answered May server c m (acts ++ [act]) configs → given configs) :
    Comes R May server c (after server c m acts) act := by
  refine comes_act suits honest h.inv h.has h.attends act works (fun hasList => gives _ ?_)
    fun request configs ends answers => gives _ ?_
  · obtain ⟨request, latest, answers⟩ := h.list hasList
    exact ⟨acts, request, List.prefix_append _ _, latest, answers⟩
  · exact ⟨acts ++ [act], request, List.prefix_rfl, .ended ends, answers⟩

theorem Sound.run {acts : List Act} (start : Sound R May server c m acts) (suits : Suits R c given)
    (honest : server.Honest May) (rest : List Act)
    (works : ∀ number t, .work number t ∈ rest → t.Obeys R)
    (gives : ∀ configs, Answered May server c m (acts ++ rest) configs → given configs) :
    Sound R May server c m (acts ++ rest) := by
  induction rest using List.reverseRecOn with
  | nil => rwa [List.append_nil]
  | append_singleton rest act ih =>
      rw [← List.append_assoc] at gives ⊢
      have sound := ih (fun number t hmem => works number t (List.mem_append_left _ hmem))
        fun configs answered => gives configs (answered.mono (List.prefix_append _ _))
      refine sound.concat (sound.comes suits honest act (fun number t hact => works number t ?_) gives)
      rw [hact]
      exact List.mem_concat_self

/-! ### What is shown -/

/-- A list that is shown between two sessions: it is at hand then, or was given to a pipeline. -/
inductive Shown (c : Nat) (s t : Session) : List Button.Config → Prop
  | atHand : HasList (t.control c) → Shown c s t (t.control c).configs
  | given {n : Nat} {p q : Pipeline} : s.pipelines[n]? = some p → t.pipelines[n]? = some q →
      q.configs ≠ p.configs → Shown c s t q.configs

/-- What an act shows is the list of the query that ended last. -/
theorem Sound.shown {acts : List Act} {act : Act} (h : Sound R May server c m acts)
    (comes : Comes R May server c (after server c m acts) act) {configs : List Button.Config}
    (shown : Shown c (after server c m acts).shared.outer
      (after server c m (acts ++ [act])).shared.outer configs) :
    ∃ request, Latest server c m (acts ++ [act]) request ∧ Answers May request configs := by
  have sound := h.concat comes
  have given := comes.given
  rw [← after_concat] at given
  cases shown with
  | atHand hasList => exact sound.list hasList
  | @given n p q hp hq other =>
      obtain ⟨q', hq', hands⟩ := given n p hp
      cases hq.symm.trans hq'
      obtain ⟨hasList, same⟩ := hands.resolve_left other
      rw [same]
      exact sound.list hasList

/-- The buttons of a pipeline, if there are any, stem from a list that was the answer to the query
that ended last, at some time. -/
def Draws (May : Request → Value → Prop) (server : Server) (c : Nat) (m : Desk) (acts : List Act)
    (q : Pipeline) : Prop :=
  q.buttons = [] ∨ ∃ configs, Answered May server c m acts configs ∧
    Pipeline.Drawn q.host configs q.buttons

/-- From when a control is set up with a pipeline, the rules may be those that keep it presentable,
if all who wait leave it alone or wait for a query of the control. -/
theorem Sound.built (lists : List Button.Config → Prop) {acts : List Act}
    (h : Sound (beside c) May server c m acts)
    (apart : ∀ q ∈ (after server c m acts).parked, Asks c q.what ∨
      q.what.Obeys (Pipeline.aside (after server c m acts).shared.outer.pipelines.length))
    (entity recordId condition : String) (none : lists []) :
    Sound (drawing c (after server c m acts).shared.outer.pipelines.length lists
        ((after server c m acts).shared.outer.control c).host)
      May server c m (acts ++ [.init entity recordId condition]) := by
  have sound := h.concat (comes_init (suits_beside c) trivial h.has entity recordId condition)
  refine ⟨sound.has, sound.list, ⟨trivial, ?_⟩, fun q hq => ?_⟩
  · rw [after_concat]
    let k := (after server c m acts).shared.outer.control c
    let p : Pipeline :=
      { entity, recordId := some recordId, host := k.host, page := k.page, fallback := k.fallback }
    exact ⟨p.built, List.getElem?_concat_length, Pipeline.presentable_built (p := p) none⟩
  · rw [after_concat] at hq
    rcases h.attends q hq with asks | beside
    · exact .inl asks
    · exact (apart q hq).imp_right fun aside reply =>
        .both (beside reply) (Pipeline.presenting_of_aside (aside reply))

/-- What happens once a control is set up with a pipeline keeps the buttons of the pipeline such. -/
theorem Sound.draws {past : List Act} (h : Sound (beside c) May server c m past)
    (honest : server.Honest May)
    (apart : ∀ q ∈ (after server c m past).parked, Asks c q.what ∨
      q.what.Obeys (Pipeline.aside (after server c m past).shared.outer.pipelines.length))
    (entity recordId condition : String) (later : List Act)
    (works : ∀ number t, .work number t ∈ later → t.Obeys (beside c))
    (kept : ∀ number t given host, .work number t ∈ later → t.Obeys
      (Pipeline.presenting (after server c m past).shared.outer.pipelines.length given host)) :
    let acts := past ++ [.init entity recordId condition] ++ later
    ∃ q, (after server c m acts).shared.outer.pipelines[
        (after server c m past).shared.outer.pipelines.length]? = some q ∧
      Draws May server c m acts q := by
  intro acts
  have set := h.built (fun configs => configs = [] ∨ Answered May server c m acts configs) apart
    entity recordId condition (.inl rfl)
  have ran := set.run (suits_drawing _ _) honest later
    (fun number t hmem => .both (works number t hmem) (kept number t _ _ hmem)) fun _ => .inr
  obtain ⟨q, there, presentable⟩ := ran.inv.2
  refine ⟨q, there, ?_⟩
  obtain ⟨configs, rfl | answered, drawn⟩ := presentable.buttons
  · exact .inl drawn.eq_nil
  · refine .inr ⟨configs, answered, ?_⟩
    rwa [presentable.hosted]

/-- **A control shows the buttons of the query that ended last.**  Whatever the server answers and
whenever, and however often the control is renamed meanwhile: from a control with no list on, each
list that is at hand or that a pipeline is given is in an answer to the query that ended last.  So it
is the control's own list if that was the query for the names that the control has now.  The bar of a
form may be older: from when the control is set up with a pipeline, and while those who wait leave
this alone, the buttons that `shown` makes a bar of stem from a list that was given to the pipeline,
and so was the answer to the query that ended last, then. -/
theorem shows_own {s : Shared Nat Session} (has : c < s.outer.controls.length)
    (unloaded : (s.outer.control c).loadedCondition = none) (honest : server.Honest May)
    (acts : List Act) (act : Act)
    (works : ∀ number t, .work number t ∈ acts ++ [act] → t.Obeys (beside c)) :
    let before := (after server c { shared := s } acts).shared.outer
    let now := (after server c { shared := s } (acts ++ [act])).shared.outer
    (∀ configs, Shown c before now configs →
      ∃ request, Latest server c { shared := s } (acts ++ [act]) request ∧
        Answers May request configs) ∧
    (Latest server c { shared := s } (acts ++ [act]) (requestOf c now) →
      ∀ configs, Shown c before now configs → Answers May (requestOf c now) configs) ∧
    ∀ past entity recordId condition later,
      acts ++ [act] = past ++ .init entity recordId condition :: later →
      let start := after server c { shared := s } past
      let n := start.shared.outer.pipelines.length
      (∀ q ∈ start.parked, Asks c q.what ∨ q.what.Obeys (Pipeline.aside n)) →
      (∀ number t given host, .work number t ∈ later → t.Obeys (Pipeline.presenting n given host)) →
      ∃ q, now.pipelines[n]? = some q ∧ Draws May server c { shared := s } (acts ++ [act]) q := by
  intro before now
  have sound (acts' : List Act) (sub : ∀ a ∈ acts', a ∈ acts ++ [act]) :
      Sound (beside c) May server c { shared := s } acts' :=
    (Sound.initial has unloaded).run (suits_beside c) honest acts'
      (fun number t hmem => works number t (sub _ hmem)) fun _ _ => trivial
  have sounds := sound acts fun a => List.mem_append_left _
  have comes := sounds.comes (suits_beside c) honest act (fun number t hact => works number t (by
    rw [hact]
    exact List.mem_concat_self)) fun _ _ => trivial
  have latest := fun configs => @Sound.shown _ May server c _ acts act sounds comes configs
  refine ⟨latest, fun own configs shown => ?_, ?_⟩
  · obtain ⟨request, last, answers⟩ := latest configs shown
    rw [last.unique own] at answers
    exact answers
  · intro past entity recordId condition later happened start n apart kept
    have whole : acts ++ [act] = past ++ [.init entity recordId condition] ++ later := by
      rw [happened, List.append_assoc, List.singleton_append]
    have early : ∀ a ∈ past, a ∈ acts ++ [act] :=
      fun a hmem => happened ▸ List.mem_append_left _ hmem
    have late : ∀ a ∈ later, a ∈ acts ++ [act] :=
      fun a hmem => whole ▸ List.mem_append_right _ hmem
    have draws := (sound past early).draws honest apart entity recordId condition later
      (fun number t hmem => works number t (late _ hmem)) kept
    rwa [← whole] at draws

/-- A control that is set up for another form, under the condition of its list, asks for nothing when
it is viewed then, and has the list of the other form. -/
theorem Latest.setUp {acts : List Act} {request : Request} (latest : Latest server c m acts request)
    (has : c < (after server c m acts).shared.outer.controls.length) {condition : String}
    (loaded : ((after server c m acts).shared.outer.control c).loadedCondition = some condition)
    (entity recordId : String) (number : Nat) :
    Latest server c m (acts ++ [.init entity recordId condition] ++ [.view number none]) request := by
  refine .kept (.kept latest (by rintro _ ⟨⟩)) ?_
  rw [after_concat]
  rintro _ ⟨-, rfl, unloaded, -⟩
  refine unloaded ?_
  have renames : (step server c (after server c m acts)
      (.init entity recordId condition)).shared.outer.control c = _ :=
    control_onControl has _
  rw [renamed, renames]
  exact loaded

end Steps

/-- A server that holds every request back. -/
def patient (read : Request → Except StoreFault Value) : Server where
  supplier :=
    { pause := fun _ _ _ s => (s, true)
      ask := fun _ _ _ s => (s, none) }
  answer := fun request s => s.hand (read request)
  pause_quiet := fun _ _ _ s => .refl s
  ask_quiet := fun _ _ _ s => .refl s
  answer_quiet := fun request s => by
    rcases read request with f | v
    · exact .refl s
    · cases v <;> exact ⟨rfl, rfl, rfl, rfl⟩

theorem honest_patient (read : Request → Except StoreFault Value) :
    (patient read).Honest fun request v => read request = .ok v where
  ask := fun _ _ _ _ _ h => nomatch h
  answer := fun request s place h => by
    have tells := s.hand_tells (read request)
    change (s.hand (read request)).2 = .ok place at h
    show read request = .ok ((s.hand (read request)).1.shelf.get? place)
    generalize s.hand (read request) = r at h tells ⊢
    rw [h] at tells
    generalize read request = answer at tells ⊢
    rcases answer with f | v
    · exact tells.elim
    · obtain ⟨place', hplace, shows⟩ := tells.shows
      cases hplace
      rw [shows.get?]

/-- A store with one button for each query, which tells the query. -/
def buttons : Request → Except StoreFault Value
  | .record _ _ => .ok (.map [("fullname", .text "Ada")])
  | .collection _ query =>
      .ok (.map [("entities", .list [.map [("theia_buttonlabel", .text query)]])])

/-- A control is viewed under a condition, and then under another one, whose query ends first; then
the record is loaded. -/
def overlapping : List Act :=
  [.init "contact" "c1" "", .view 0 (some "f"), .view 1 (some "g"), .release 2, .release 3]

/-- A session with a control that has not been used. -/
def unused : Shared Nat Session :=
  { outer := { controls := [{ id := "k1" }] } }

/-- After the first acts of it. -/
def overlapped (k : Nat) : Desk :=
  after (patient buttons) 0 { shared := unused } (overlapping.take k)

/-- The query for the names that the control has in the end. -/
def ownQuery : Request :=
  .collection "theia_buttonconfiguration" (Button.Source.query "contact" "g")

theorem requestOf_eq_ownQuery {s : Session}
    (names : (s.control 0).entity = "contact" ∧ (s.control 0).condition = "g" ∧
      s.configEntity = "theia_buttonconfiguration") : requestOf 0 s = ownQuery := by
  obtain ⟨entity, condition, configEntity⟩ := names
  rw [requestOf, request, entity, condition, configEntity, ownQuery]

/-- The second query is under way, and so is the first. -/
theorem overlapped_finds : (overlapped 3).parked.find? (·.wait == 2) =
    some ⟨2, 1, .asking ownQuery (afterwards 0)⟩ := by
  have first : (overlapped 2).parked.map (·.wait) = [1] := by decide +kernel
  have waits : (overlapped 2).shared.waits = 1 := by decide +kernel
  have set : ((overlapped 2).shared.outer.control 0).pipeline.isNone = false := by decide +kernel
  have unloaded : ((renamed 0 (some "g") (overlapped 2).shared.outer).control 0).loadedCondition =
      none := by
    decide +kernel
  have asks : requestOf 0 (renamed 0 (some "g") (overlapped 2).shared.outer) = ownQuery :=
    requestOf_eq_ownQuery (by decide +kernel)
  have views : overlapped 3 = step (patient buttons) 0 (overlapped 2) (.view 1 (some "g")) := rfl
  obtain ⟨q, alone, hq⟩ := List.map_eq_singleton_iff.mp first
  rw [views, parked_view set ?_ rfl, alone, waits, asks]
  · rw [List.singleton_append, List.find?_cons_of_neg (by simp [hq])]
    rfl
  · rw [unloaded]
    exact nofun

/-- The answer to a query is a list. -/
theorem brings_button (s : Session) (configEntity query : String) :
    let answered := (patient buttons).answer (.collection configEntity query) s
    Brings answered.1 answered.2 := by
  intro answered place hplace
  have answers := (honest_patient buttons).answer (.collection configEntity query) s place hplace
  rw [← Except.ok.inj answers]
  exact ⟨_, rfl⟩

theorem overlapped_own :
    (∃ q, (overlapped 4).shared.outer.pipelines[0]? = some q ∧
      q.configs.map (·.label.text?) = [some (Button.Source.query "contact" "g")] ∧
      Answers (fun request v => buttons request = .ok v) ownQuery q.configs) ∧
    ∃ q, (after (patient buttons) 0 { shared := unused }
        overlapping).shared.outer.pipelines[0]? = some q ∧ q.buttons.length = 1 ∧
      ∃ configs, Answered (fun request v => buttons request = .ok v) (patient buttons) 0
        { shared := unused } overlapping configs ∧ Pipeline.Drawn q.host configs q.buttons := by
  have none : ∀ number t, .work number t ∉ overlapping := by
    intro number t hmem
    simp [overlapping] at hmem
  constructor
  · have whole : overlapping.take 3 ++ [.release 2] = overlapping.take 4 := rfl
    obtain ⟨-, own, -⟩ := shows_own (c := 0) (s := unused) Nat.zero_lt_one rfl
      (honest_patient buttons) (overlapping.take 3) (.release 2)
      fun number t hmem => absurd (List.mem_of_mem_take (whole ▸ hmem)) (none number t)
    have latest : Latest (patient buttons) 0 { shared := unused }
        (overlapping.take 3 ++ [.release 2]) ownQuery :=
      .ended (.later overlapped_finds rfl (brings_button _ _ _))
    rw [whole] at own latest
    have asks : requestOf 0 (after (patient buttons) 0 { shared := unused }
        (overlapping.take 4)).shared.outer = ownQuery :=
      requestOf_eq_ownQuery (by decide +kernel)
    have shown : ∀ configs,
        Shown 0 (overlapped 3).shared.outer (overlapped 4).shared.outer configs →
        Answers (fun request v => buttons request = .ok v) ownQuery configs := by
      rw [asks] at own
      rw [overlapped, overlapped]
      exact own latest
    have built : (overlapped 3).shared.outer.pipelines[0]?.map (·.configs.length) = some 0 := by
      decide +kernel
    have given : (overlapped 4).shared.outer.pipelines[0]?.map (·.configs.map (·.label.text?)) =
        some [some (Button.Source.query "contact" "g")] := by
      decide +kernel
    obtain ⟨p, hp, built⟩ := Option.map_eq_some_iff.mp built
    obtain ⟨q, hq, given⟩ := Option.map_eq_some_iff.mp given
    refine ⟨q, hq, given, shown q.configs (.given hp hq fun same => ?_)⟩
    rw [same, List.length_eq_zero_iff.mp built] at given
    cases given
  · have whole : overlapping.take 4 ++ [.release 3] = overlapping := rfl
    obtain ⟨-, -, drawn⟩ := shows_own (c := 0) (s := unused) Nat.zero_lt_one rfl
      (honest_patient buttons) (overlapping.take 4) (.release 3)
      fun number t hmem => absurd (whole ▸ hmem) (none number t)
    rw [whole] at drawn
    obtain ⟨q, there, draws⟩ := drawn [] "contact" "c1" "" (overlapping.drop 1) rfl
      (fun _ hq => absurd hq List.not_mem_nil)
      fun number t _ _ hmem => absurd (List.mem_of_mem_drop hmem) (none number t)
    have bar : (after (patient buttons) 0 { shared := unused }
        overlapping).shared.outer.pipelines[0]?.map (·.buttons.length) = some 1 := by
      decide +kernel
    obtain ⟨q', hq', one⟩ := Option.map_eq_some_iff.mp bar
    cases there.symm.trans hq'
    refine ⟨q, there, one, draws.resolve_left fun empty => ?_⟩
    rw [empty] at one
    cases one

end Desk

end Control

end Toolbar
