/-
# `Toolbar.Proofs.Session.Subscription` — who hears of a save

A pipeline that is to listen subscribes when it is built, once and to saves alone, and a teardown ends
its subscription.  Nothing else changes who listens, so after its teardown a pipeline is told of
nothing any more (`Registered.deaf`).
-/
import Toolbar.Proofs.Pipeline.Refresh
import Toolbar.Proofs.Session.Frame

namespace Toolbar

namespace Pipeline

section Operations

variable {m : Nat} {s t : Session}

/-- A valid event goes to the listeners that it has when it is published. -/
theorem publish_work {event : Value} {name : String} (valid : Event.validate event = .ok name) :
    (Op.publish event).work = .look fun s =>
      (Session.deliver name event (s.outer.bus.listeners name)).bind fun _ => .done () := by
  have assoc : ∀ ls, ((Session.deliver name event ls).bind fun _ =>
      (.done (.ok ()) : Work (Except Event.Invalid Unit))).bind (fun _ => .done ()) =
      (Session.deliver name event ls).bind fun _ => (.done () : Work Unit) :=
    fun ls => Task.bind_assoc _ _ _
  rw [Op.work, Session.publish, valid]
  exact congrArg Task.look (funext fun s => assoc _)

theorem invalid_work {event : Value} {e : Event.Invalid} (invalid : Event.validate event = .error e) :
    (Op.publish event).work = .done () := by
  rw [Op.work, Session.publish, invalid]
  rfl

/-- A publication keeps to rules when the pipelines that hear of it do. -/
theorem obeys_hearing {R : Rules} (lasting : R.Lasting) {name : String} {event : Value}
    {ls : List Listener}
    (hears : ∀ m, .pipeline m ∈ ls → (onSaved m (event.field "payload")).Obeys R) :
    (Session.deliver name event ls).Obeys R := by
  induction ls with
  | nil => trivial
  | cons l ls ih =>
      refine .bind ?_ fun _ => ih fun m hm => hears m (List.mem_cons_of_mem _ hm)
      cases l with
      | host => exact ⟨fun _ _ => lasting.quiet _ _ ⟨rfl, rfl, rfl, rfl⟩, trivial⟩
      | pipeline m => exact hears m List.mem_cons_self

theorem obeys_publish {R : Rules} (lasting : R.Lasting) {event : Value}
    (hears : ∀ (s : Session) (name : String) (m : Nat), R.inv s →
      .pipeline m ∈ s.bus.listeners name → (onSaved m (event.field "payload")).Obeys R) :
    (Op.publish event).work.Obeys R := by
  cases valid : Event.validate event with
  | error e =>
      rw [invalid_work valid]
      trivial
  | ok name =>
      rw [publish_work valid]
      intro s hs
      exact .bind (obeys_hearing lasting fun m hm => hears s.outer name m hs hm) fun _ => trivial

/-! ## The bus after a teardown -/

theorem listeners_tearDown (m : Nat) (s : Session) (name : String) :
    (s.tearDownPipeline m).bus.listeners name =
      if (s.pipeline m).listens ∧ name = Event.recordSaved then
        (s.bus.listeners Event.recordSaved).erase (.pipeline m)
      else s.bus.listeners name := by
  unfold Session.tearDownPipeline
  cases (s.pipeline m).listens with
  | false => simp [Session.onPipeline]
  | true =>
      simp only [if_true, true_and, Session.onPipeline]
      exact Bus.listeners_unsubscribe _ _ _ _

theorem pipelines_tearDown (m : Nat) (s : Session) :
    (s.tearDownPipeline m).pipelines = (s.onPipeline m tornDown).pipelines := by
  rw [tearDownPipeline_eq]

/-! ## Subscriptions -/

/-- Pipelines listen to saves alone, if they are to, and once. -/
structure Registered (s : Session) : Prop where
  name : ∀ n name, .pipeline n ∈ s.bus.listeners name → name = Event.recordSaved
  listens : ∀ n name, .pipeline n ∈ s.bus.listeners name →
    ∃ p, s.pipelines[n]? = some p ∧ p.listens = true
  once : ∀ n, (s.bus.listeners Event.recordSaved).count (.pipeline n) ≤ 1

theorem Registered.of_fresh (fresh : ∀ n name, .pipeline n ∉ s.bus.listeners name) :
    Registered s where
  name := fun n name hmem => absurd hmem (fresh n name)
  listens := fun n name hmem => absurd hmem (fresh n name)
  once := fun n => by
    rw [List.count_eq_zero.mpr (fresh n _)]
    exact Nat.zero_le 1

/-- The rules of work that keeps subscriptions in order. -/
def registering : Rules where
  inv := fun _ => True
  may := fun s t => Registered s → Registered t
  uses := fun _ => True

theorem lasting_registering : registering.Lasting where
  quiet := fun s t quiet h => by
    refine ⟨fun n name hmem => h.name n name (quiet.bus ▸ hmem), fun n name hmem => ?_, fun n => ?_⟩
    · rw [quiet.pipelines]
      exact h.listens n name (quiet.bus ▸ hmem)
    · rw [quiet.bus]
      exact h.once n
  trans := fun s t u h h' hs => h' (h hs)
  inv := fun _ _ _ _ => trivial

theorem Registered.serves {given : List Button.Config → Prop} (h : Registered s)
    (serves : Serves m given s t) : Registered t := by
  refine ⟨fun n name hmem => h.name n name (serves.bus ▸ hmem), fun n name hmem => ?_, fun n => ?_⟩
  · obtain ⟨p, hp, listens⟩ := h.listens n name (serves.bus ▸ hmem)
    by_cases hn : n = m
    · subst hn
      obtain ⟨q, hq, same⟩ := serves.own p hp
      exact ⟨q, hq, same.listens.trans listens⟩
    · exact ⟨p, (serves.others n hn).trans hp, listens⟩
  · rw [serves.bus]
    exact h.once n

theorem Registered.tearDown (h : Registered s) (m : Nat) : Registered (s.tearDownPipeline m) := by
  have before : ∀ n name, .pipeline n ∈ (s.tearDownPipeline m).bus.listeners name →
      .pipeline n ∈ s.bus.listeners name := by
    intro n name hmem
    rw [listeners_tearDown] at hmem
    split at hmem
    next hname => exact hname.2 ▸ List.mem_of_mem_erase hmem
    next => exact hmem
  refine ⟨fun n name hmem => h.name n name (before n name hmem), fun n name hmem => ?_,
    fun n => ?_⟩
  · obtain ⟨p, hp, listens⟩ := h.listens n name (before n name hmem)
    rw [pipelines_tearDown]
    by_cases hn : n = m
    · subst hn
      exact ⟨p.tornDown, Session.getElem?_onPipeline hp tornDown, listens⟩
    · exact ⟨p, (List.getElem?_modify_ne tornDown _ (Ne.symm hn)).trans hp, listens⟩
  · rw [listeners_tearDown]
    split
    · exact Nat.le_trans (List.erase_sublist.count_le _) (h.once n)
    · exact h.once n

/-- Who is taken down hears nothing any more. -/
theorem Registered.deaf (h : Registered s) (n : Nat) (name : String) :
    .pipeline n ∉ (s.tearDownPipeline n).bus.listeners name := by
  intro hmem
  rw [listeners_tearDown] at hmem
  split at hmem
  next =>
    have once := h.once n
    have left : 0 < ((s.bus.listeners Event.recordSaved).erase (.pipeline n)).count (.pipeline n) :=
      List.count_pos_iff.mpr hmem
    rw [List.count_erase_self] at left
    omega
  next other =>
    obtain ⟨p, hp, listens⟩ := h.listens n name hmem
    refine other ⟨?_, h.name n name hmem⟩
    rw [Session.pipeline_of_getElem? hp]
    exact listens

/-- A new pipeline was not there before, so it does not listen yet. -/
theorem Registered.add (h : Registered s) (p : Pipeline) : Registered (s.addPipeline p) := by
  have fresh : ∀ name, .pipeline s.pipelines.length ∉ s.bus.listeners name := by
    intro name hmem
    obtain ⟨q, hq, -⟩ := h.listens _ name hmem
    exact absurd (List.getElem?_eq_some_iff.mp hq).1 (Nat.lt_irrefl _)
  have old : ∀ n q, s.pipelines[n]? = some q → (s.pipelines ++ [p])[n]? = some q := fun n q hq =>
    (List.getElem?_append_left (List.getElem?_eq_some_iff.mp hq).1).trans hq
  cases listens : p.listens with
  | false =>
      simp only [Session.addPipeline, listens, Bool.false_eq_true, if_false]
      refine ⟨h.name, fun n name hmem => ?_, h.once⟩
      obtain ⟨q, hq, hlistens⟩ := h.listens n name hmem
      exact ⟨q, old n q hq, hlistens⟩
  | true =>
      simp only [Session.addPipeline, listens, if_true]
      refine ⟨fun n name hmem => ?_, fun n name hmem => ?_, fun n => ?_⟩
      · rw [Bus.listeners_subscribe] at hmem
        split at hmem
        next hname => exact hname
        next => exact h.name n name hmem
      · rw [Bus.listeners_subscribe] at hmem
        split at hmem
        next hname =>
          rcases List.mem_append.mp hmem with hmem | hmem
          · obtain ⟨q, hq, hlistens⟩ := h.listens n _ hmem
            exact ⟨q, old n q hq, hlistens⟩
          · cases List.mem_singleton.mp hmem
            exact ⟨p, List.getElem?_concat_length, listens⟩
        next =>
          obtain ⟨q, hq, hlistens⟩ := h.listens n name hmem
          exact ⟨q, old n q hq, hlistens⟩
      · rw [Bus.listeners_subscribe, if_pos rfl, List.count_append]
        by_cases hn : n = s.pipelines.length
        · rw [hn, List.count_eq_zero.mpr (fresh _)]
          simp
        · have other : Listener.pipeline s.pipelines.length ≠ .pipeline n := by
            rintro ⟨⟩
            exact hn rfl
          rw [List.count_singleton, if_neg (by simpa using other)]
          exact h.once n

theorem obeys_registering (o : Op) : o.work.Obeys registering := by
  cases o with
  | construct p => exact ⟨fun s _ hs => hs.add p.built, trivial⟩
  | publish event =>
      refine obeys_publish lasting_registering fun _ _ m _ _ => ?_
      exact (obeys_onSaved m _).mono (fun _ _ => trivial) (fun _ _ _ h hs => hs.serves h)
        fun _ _ => trivial
  | deed m d =>
      cases d with
      | tearDown => exact ⟨fun _ _ => trivial, fun _ => ⟨fun s _ hs => hs.tearDown m, trivial⟩⟩
      | call c =>
          refine .bind ((obeys_call m c).mono ?_ ?_ ?_) fun _ => trivial
          · exact fun _ _ => trivial
          · exact fun _ _ _ h hs => hs.serves h
          · exact fun _ _ => trivial

end Operations

end Pipeline

end Toolbar
