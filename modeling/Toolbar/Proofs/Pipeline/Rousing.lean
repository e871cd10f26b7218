/-
# `Toolbar.Proofs.Pipeline.Rousing` — work that waits, and a pipeline that is taken down

A teardown does not give up the work that waits.  What becomes of the pipeline is up to those who wait:

    who waits                                        when it is woken
    a load or a cycle of the pipeline                goes on, and leaves another stage than idle
    a publication that has yet to call the pipeline  calls it, and it loads
    anybody else                                     leaves it alone

`Obeys (sparing n p)` says that work leaves the pipeline alone, and `Rouses` that it ends with the
pipeline in another stage than idle.  There is nobody who waits and does neither (`fair_op`).
-/
import Toolbar.Proofs.Session.Subscription

namespace Toolbar

namespace Pipeline

/-! ## Work that leaves a pipeline alone -/

/-- A session has a pipeline about the record of `p`, and tells it of nothing. -/
structure Retired (n : Nat) (p : Pipeline) (s : Session) : Prop where
  form : ∃ q, s.pipelines[n]? = some q ∧ SameRecord p q
  deaf : ∀ name, .pipeline n ∉ s.bus.listeners name

/-- A pipeline is as it was, and hears no more than it did. -/
structure Spared (n : Nat) (s t : Session) : Prop where
  pipeline : t.pipelines[n]? = s.pipelines[n]?
  deaf : ∀ name, .pipeline n ∈ t.bus.listeners name → .pipeline n ∈ s.bus.listeners name

/-- The rules of work that leaves alone a pipeline that was taken down: it does not change it, and
uses other scopes than its own. -/
def sparing (n : Nat) (p : Pipeline) : Rules where
  inv := Retired n p
  may := Spared n
  uses := (· ≠ n)

/-- The rules of work that leaves a pipeline alone in every session. -/
def aside (n : Nat) : Rules where
  inv := fun _ => True
  may := Spared n
  uses := (· ≠ n)

/-- The rules of work that does not change a pipeline. -/
def keeping (n : Nat) : Rules where
  inv := fun _ => True
  may := fun s t => t.pipelines[n]? = s.pipelines[n]?
  uses := fun _ => True

section Sparing

variable {n m : Nat} {p : Pipeline} {s t u : Session}

theorem Spared.of_serves {given : List Button.Config → Prop} (h : Serves m given s t)
    (hm : m ≠ n) : Spared n s t where
  pipeline := h.others n hm.symm
  deaf := fun name hname => by rwa [h.bus] at hname

theorem Spared.of_quiet (quiet : s.Quiet t) : Spared n s t :=
  ⟨by rw [quiet.pipelines], fun name h => by rwa [quiet.bus] at h⟩

theorem Spared.trans (h : Spared n s t) (h' : Spared n t u) : Spared n s u :=
  ⟨h'.pipeline.trans h.pipeline, fun name hname => h.deaf name (h'.deaf name hname)⟩

theorem lasting_aside (n : Nat) : (aside n).Lasting where
  quiet := fun _ _ => .of_quiet
  trans := fun _ _ _ => .trans
  inv := fun _ _ _ _ => trivial

theorem lasting_sparing (n : Nat) (p : Pipeline) : (sparing n p).Lasting where
  quiet := fun _ _ => .of_quiet
  trans := fun _ _ _ => .trans
  inv := fun s t hs h => by
    obtain ⟨q, hq, same⟩ := hs.form
    exact ⟨⟨q, h.pipeline.trans hq, same⟩, fun name hname => hs.deaf name (h.deaf name hname)⟩

theorem obeys_aside {α : Type} {given : List Button.Config → Prop} {t : Work α}
    (h : t.Obeys (rules m given)) (hm : m ≠ n) : t.Obeys (aside n) :=
  h.mono (fun _ _ => trivial) (fun _ _ _ h => .of_serves h hm) (by rintro _ rfl; exact hm)

/-- What leaves a pipeline alone in every session does so once it was taken down. -/
theorem sparing_of_aside {α : Type} {t : Work α} (h : t.Obeys (aside n)) :
    t.Obeys (sparing n p) :=
  h.mono (fun _ _ => trivial) (fun _ _ _ h => h) fun _ h => h

end Sparing

end Pipeline

/-! ## Work that rouses a pipeline -/

section Rousing

variable {α β : Type}

/-- When nobody else changes a pipeline, which is `q` now, work ends with it in another stage than
idle. -/
def Task.Rouses (n : Nat) : Work α → Pipeline → Prop
  | .done _, q => q.stage ≠ .idle
  | .look next, q => ∀ s, s.outer.pipelines[n]? = some q → (next s).Rouses n q
  | .change f next, q => ∀ s, s.pipelines[n]? = some q →
      ∃ q', (f s).pipelines[n]? = some q' ∧ next.Rouses n q'
  | .move _ next, q => ∀ count, (next count).Rouses n q
  | .fetch _ _ _ next, q => ∀ reply, (next reply).Rouses n q
  | .ask _ next, q => ∀ reply, (next reply).Rouses n q

/-- What follows a wait leaves alone a pipeline about the record of `p`, when it was taken down, or
rouses it. -/
def Settles (n : Nat) (p : Pipeline) (next : Except StoreFault (Option Nat) → Work α) : Prop :=
  (∀ reply, (next reply).Obeys (Pipeline.sparing n p)) ∨
    ∀ reply q, Pipeline.SameRecord p q → (next reply).Rouses n q

/-- Wherever work waits, what follows settles what becomes of the pipeline. -/
def Task.Fair (n : Nat) (p : Pipeline) : Work α → Prop
  | .done _ => True
  | .look next => ∀ s, (next s).Fair n p
  | .change _ next => next.Fair n p
  | .move _ next => ∀ count, (next count).Fair n p
  | .fetch _ _ _ next => Settles n p next ∧ ∀ reply, (next reply).Fair n p
  | .ask _ next => Settles n p next ∧ ∀ reply, (next reply).Fair n p

/-- Work does not put a pipeline about the record of `p` to rest. -/
def Wakeful (n : Nat) (p : Pipeline) (k : β → Work α) : Prop :=
  ∀ b q, Pipeline.SameRecord p q → q.stage ≠ .idle → (k b).Rouses n q

/-- Work that may follow a call of the pipeline. -/
structure Tail (n : Nat) (p : Pipeline) (k : β → Work α) : Prop where
  wakeful : Wakeful n p k
  fair : ∀ b, (k b).Fair n p

namespace Task

variable {n : Nat} {p q : Pipeline} {t : Work β} {k : β → Work α}

theorem Rouses.behind (h : t.Obeys (Pipeline.keeping n)) (hk : ∀ b, (k b).Rouses n q) :
    (t.bind k).Rouses n q := by
  induction t with
  | done b => exact hk b
  | look next ih => exact fun s _ => ih s (h s trivial)
  | change f next ih => exact fun s hs => ⟨q, (h.1 s trivial).trans hs, ih h.2⟩
  | move m next ih => exact fun count => ih count (h.2 count)
  | fetch scope entity id next ih => exact fun reply => ih reply (h.2 reply)
  | ask request next ih => exact fun reply => ih reply (h reply)

/-- Work that does not change the pipeline rouses it in all its waits if what is behind it does. -/
theorem Fair.behind (h : t.Obeys (Pipeline.keeping n))
    (rouses : ∀ b q, Pipeline.SameRecord p q → (k b).Rouses n q) (fair : ∀ b, (k b).Fair n p) :
    (t.bind k).Fair n p := by
  have settles {next : Except StoreFault (Option Nat) → Work β}
      (hnext : ∀ reply, (next reply).Obeys (Pipeline.keeping n)) :
      Settles n p fun reply => (next reply).bind k :=
    .inr fun reply q hq => .behind (hnext reply) fun b => rouses b q hq
  induction t with
  | done b => exact fair b
  | look next ih => exact fun s => ih s (h s trivial)
  | change f next ih => exact ih h.2
  | move m next ih => exact fun count => ih count (h.2 count)
  | fetch scope entity id next ih => exact ⟨settles h.2, fun reply => ih reply (h.2 reply)⟩
  | ask request next ih => exact ⟨settles h, fun reply => ih reply (h reply)⟩

/-- Work that leaves the pipeline alone spares it in all its waits if what is behind it does. -/
theorem Fair.aside (h : t.Obeys (Pipeline.aside n))
    (spares : ∀ b, (k b).Obeys (Pipeline.sparing n p)) (fair : ∀ b, (k b).Fair n p) :
    (t.bind k).Fair n p := by
  have settles {next : Except StoreFault (Option Nat) → Work β}
      (hnext : ∀ reply, (next reply).Obeys (Pipeline.aside n)) :
      Settles n p fun reply => (next reply).bind k :=
    .inl fun reply => .bind (Pipeline.sparing_of_aside (hnext reply)) spares
  induction t with
  | done b => exact fair b
  | look next ih => exact fun s => ih s (h s trivial)
  | change f next ih => exact ih h.2
  | move m next ih => exact fun count => ih count (h.2 count)
  | fetch scope entity id next ih => exact ⟨settles h.2, fun reply => ih reply (h.2 reply)⟩
  | ask request next ih => exact ⟨settles h, fun reply => ih reply (h reply)⟩

end Task

end Rousing

namespace Pipeline

section Calls

variable {α β : Type} {n m : Nat} {p q : Pipeline}

/-! ### Steps of a call -/

theorem rouses_pipeline {f : Pipeline → Work β} {k : β → Work α}
    (h : ((f q).bind k).Rouses n q) : ((Work.pipeline n >>= f).bind k).Rouses n q := by
  intro s hs
  exact (Session.pipeline_of_getElem? hs).symm ▸ h

theorem rouses_onPipeline {g : Pipeline → Pipeline} {f : Unit → Work β} {k : β → Work α}
    (h : ((f ()).bind k).Rouses n (g q)) :
    ((Task.modify (Session.onPipeline n g) >>= f).bind k).Rouses n q :=
  fun _ hs => ⟨g q, Session.getElem?_onPipeline hs g, h⟩

theorem loadedPipeline_at {s : Session} (hs : s.pipelines[n]? = some q) (place : Option Nat) :
    ∃ record evaluated,
      (s.loadedPipeline n place).pipelines[n]? = some (q.loaded record evaluated) := by
  unfold Session.loadedPipeline
  split
  · exact ⟨_, _, Session.getElem?_onPipeline hs _⟩
  · exact ⟨_, _, Session.getElem?_onPipeline (s := (s.shelve (.map [])).1) hs _⟩

theorem fair_pipeline {f : Pipeline → Work β} {k : β → Work α}
    (h : ∀ q, ((f q).bind k).Fair n p) : ((Work.pipeline m >>= f).bind k).Fair n p :=
  fun _ => h _

theorem fair_modify {g : Session → Session} {f : Unit → Work β} {k : β → Work α}
    (h : ((f ()).bind k).Fair n p) : ((Task.modify g >>= f).bind k).Fair n p :=
  h

theorem rouses_behind {γ : Type} {t : Work γ} {f : γ → Work β} {k : β → Work α}
    (h : t.Obeys (keeping n)) (hk : ∀ b, ((f b).bind k).Rouses n q) :
    ((t >>= f).bind k).Rouses n q := by
  have assoc : (t >>= f).bind k = t.bind fun b => (f b).bind k := Task.bind_assoc _ _ _
  rw [assoc]
  exact .behind h hk

theorem fair_behind {γ : Type} {t : Work γ} {f : γ → Work β} {k : β → Work α}
    (h : t.Obeys (keeping n)) (rouses : ∀ b q, SameRecord p q → ((f b).bind k).Rouses n q)
    (fair : ∀ b, ((f b).bind k).Fair n p) : ((t >>= f).bind k).Fair n p := by
  have assoc : (t >>= f).bind k = t.bind fun b => (f b).bind k := Task.bind_assoc _ _ _
  rw [assoc]
  exact .behind h rouses fair

/-! ### Calls of the pipeline -/

variable {k : Except Fault (List Button.Shown) → Work α}

section

variable (wakeful : Wakeful n p k)

include wakeful

theorem rouses_endFailed (same : SameRecord p q) : ((endFailed n).bind k).Rouses n q :=
  rouses_onPipeline (wakeful _ _ ⟨same.entity, same.recordId⟩ nofun)

/-- What follows the resolution of the configurations rouses the pipeline. -/
theorem rouses_made (made : Except Fault (List Button.Shown)) (same : SameRecord p q) :
    Task.Rouses n (Task.bind (match made with
      | .error _ => endFailed n
      | .ok buttons => do
          Task.modify (Session.onPipeline n (·.resolved buttons))
          return .ok buttons) k) q := by
  cases made with
  | error f => exact rouses_endFailed wakeful same
  | ok buttons => exact rouses_onPipeline (wakeful _ _ ⟨same.entity, same.recordId⟩ nofun)

/-- A cycle does not put a pipeline to rest. -/
theorem rouses_cycle (same : SameRecord p q) (stage : q.stage ≠ .idle) :
    ((cycle n).bind k).Rouses n q := by
  refine rouses_pipeline ?_
  cases q.mayStart with
  | false => exact wakeful _ q same stage
  | true =>
      refine rouses_onPipeline ?_
      have cycling : SameRecord p q.cycling := ⟨same.entity, same.recordId⟩
      cases Button.Config.hash q.configs with
      | error f => exact wakeful _ _ cycling nofun
      | ok hash =>
          refine rouses_onPipeline ?_
          have hashed : SameRecord p (q.hashed hash) := ⟨same.entity, same.recordId⟩
          cases Button.sortByPosition q.configs with
          | error f => exact rouses_endFailed wakeful hashed
          | ok sorted =>
              exact rouses_behind (obeys_resolveEach trivial sorted) fun made =>
                rouses_made wakeful made hashed

theorem rouses_afterLoad (reply : Except StoreFault (Option Nat)) (same : SameRecord p q) :
    ((afterLoad n reply).bind k).Rouses n q := by
  cases reply with
  | error f =>
      refine fun s hs => ⟨_, Session.getElem?_onPipeline (s := s) hs _, ?_⟩
      exact rouses_pipeline (wakeful _ _ ⟨same.entity, same.recordId⟩ nofun)
  | ok place =>
      intro s hs
      obtain ⟨record, evaluated, loaded⟩ := loadedPipeline_at hs place
      exact ⟨_, loaded, rouses_cycle wakeful ⟨same.entity, same.recordId⟩ nofun⟩

/-- A run rouses a pipeline from every stage. -/
theorem rouses_run (same : SameRecord p q) : ((run n).bind k).Rouses n q := by
  rw [run_eq]
  refine rouses_onPipeline (rouses_pipeline ?_)
  have loading : SameRecord p q.loading := ⟨same.entity, same.recordId⟩
  cases Record.isNew q.loading.recordId with
  | true =>
      refine fun s hs => ⟨_, Session.getElem?_onPipeline (s := s) hs _, ?_⟩
      exact rouses_cycle wakeful ⟨same.entity, same.recordId⟩ nofun
  | false => exact fun reply => rouses_afterLoad wakeful reply loading

end

section

variable (tail : Tail n p k)

include tail

theorem fair_made (made : Except Fault (List Button.Shown)) :
    Task.Fair n p (Task.bind (match made with
      | .error _ => endFailed n
      | .ok buttons => do
          Task.modify (Session.onPipeline n (·.resolved buttons))
          return .ok buttons) k) := by
  cases made with
  | error f => exact fair_modify (tail.fair _)
  | ok buttons => exact fair_modify (tail.fair _)

theorem fair_cycle : ((cycle n).bind k).Fair n p := by
  refine fair_pipeline fun q => ?_
  cases q.mayStart with
  | false => exact tail.fair _
  | true =>
      refine fair_modify ?_
      cases Button.Config.hash q.configs with
      | error f => exact tail.fair _
      | ok hash =>
          refine fair_modify ?_
          cases Button.sortByPosition q.configs with
          | error f => exact fair_modify (tail.fair _)
          | ok sorted =>
              exact fair_behind (obeys_resolveEach trivial sorted)
                (fun made q same => rouses_made tail.wakeful made same) (fair_made tail)

theorem fair_afterLoad (reply : Except StoreFault (Option Nat)) :
    ((afterLoad n reply).bind k).Fair n p := by
  cases reply with
  | error f => exact fair_modify (fair_pipeline fun q => tail.fair _)
  | ok place => exact fair_modify (fair_cycle tail)

theorem fair_run : ((run n).bind k).Fair n p := by
  rw [run_eq]
  refine fair_modify (fair_pipeline fun q => ?_)
  cases Record.isNew q.recordId with
  | true => exact fair_modify (fair_cycle tail)
  | false =>
      refine ⟨.inr fun reply q same => ?_, fair_afterLoad tail⟩
      exact rouses_afterLoad tail.wakeful reply same

theorem fair_setConfigs (configs : List Button.Config) :
    ((setConfigs n configs).bind k).Fair n p := by
  have replace : ((replaceConfigs n configs).bind k).Fair n p := fair_modify (fair_cycle tail)
  refine fair_pipeline fun q => ?_
  split
  · cases Button.Config.hash configs with
    | error f => exact tail.fair _
    | ok hash =>
        dsimp only
        split
        · exact tail.fair _
        · exact replace
  · exact replace

end

end Calls

/-! ### Publications -/

section Publishing

variable {α : Type} {n m : Nat} {p q : Pipeline} {name : String} {event : Value}
  {k : Unit → Work α}

theorem SameRecord.isAbout (same : SameRecord p q) (payload : Value) :
    q.isAbout payload = p.isAbout payload := by
  simp only [Pipeline.isAbout, same.entity, same.recordId]

theorem onSaved_bind (payload : Value) (q : Pipeline) :
    (if q.isAbout payload then (do let _ ← reload n; return ()) else return () : Work Unit).bind k =
      if q.isAbout payload then (reload n).bind fun _ => k () else k () := by
  split
  · exact Task.bind_assoc _ _ _
  · rfl

theorem rouses_onSaved (wakeful : Wakeful n p k) (same : SameRecord p q) {payload : Value}
    (rouses : p.isAbout payload = true ∨ q.stage ≠ .idle) :
    ((onSaved n payload).bind k).Rouses n q := by
  refine rouses_pipeline ?_
  rw [onSaved_bind, same.isAbout]
  split
  · exact fun _ => rouses_run (fun _ => wakeful ()) same
  next deaf => exact wakeful () q same (rouses.resolve_left deaf)

theorem fair_onSaved (tail : Tail n p k) (payload : Value) :
    ((onSaved n payload).bind k).Fair n p := by
  refine fair_pipeline fun q => ?_
  rw [onSaved_bind]
  split
  · exact fun _ => fair_run ⟨fun _ => tail.wakeful (), fun _ => tail.fair ()⟩
  · exact tail.fair ()

theorem obeys_keeping {given : List Button.Config → Prop} {t : Work α}
    (h : t.Obeys (rules m given)) (hm : m ≠ n) : t.Obeys (keeping n) :=
  h.mono (fun _ _ => trivial) (fun _ _ _ h => h.others n hm.symm) fun _ _ => trivial

/-- A publication spares a pipeline that it does not call, or that it does not concern. -/
theorem obeys_deliver (ls : List Listener)
    (h : .pipeline n ∈ ls → p.isAbout (event.field "payload") = false) :
    (Session.deliver name event ls).Obeys (sparing n p) := by
  refine obeys_hearing (lasting_sparing n p) fun m hmem => ?_
  by_cases hm : m = n
  · subst hm
    intro s retired
    obtain ⟨q, hq, same⟩ := retired.form
    have deaf := h hmem
    rw [← same.isAbout, ← Session.pipeline_of_getElem? hq] at deaf
    show (if (s.outer.pipeline m).isAbout (event.field "payload") = true then _ else _ :
      Work Unit).Obeys (sparing m p)
    rw [if_neg (Bool.eq_false_iff.mp deaf)]
    trivial
  · exact sparing_of_aside (obeys_aside (obeys_onSaved m _) hm)

theorem deliver_bind (l : Listener) (ls : List Listener) :
    (Session.deliver name event (l :: ls)).bind k =
      (Session.hear name event l).bind fun _ => (Session.deliver name event ls).bind k :=
  Task.bind_assoc _ _ _

/-- A publication that calls a pipeline about its record rouses it, and none puts it to rest. -/
theorem rouses_deliver (wakeful : Wakeful n p k) (ls : List Listener) (same : SameRecord p q)
    (rouses : (.pipeline n ∈ ls ∧ p.isAbout (event.field "payload") = true) ∨ q.stage ≠ .idle) :
    ((Session.deliver name event ls).bind k).Rouses n q := by
  induction ls generalizing q with
  | nil => exact wakeful () q same (rouses.resolve_left fun h => List.not_mem_nil h.1)
  | cons l ls ih =>
      rw [deliver_bind]
      have behind (hl : l ≠ .pipeline n) :
          ((Session.deliver name event ls).bind k).Rouses n q := by
        refine ih same (rouses.imp_left fun ⟨hmem, about⟩ => ⟨?_, about⟩)
        exact (List.mem_cons.mp hmem).resolve_left (Ne.symm hl)
      cases l with
      | host => exact fun s hs => ⟨q, hs, behind nofun⟩
      | pipeline m =>
          by_cases hm : m = n
          · subst hm
            refine rouses_onSaved (fun _ q same stage => ih same (.inr stage)) same ?_
            exact rouses.imp_left And.right
          · refine .behind (obeys_keeping (obeys_onSaved m _) hm) fun _ => behind ?_
            rintro ⟨⟩
            exact hm rfl

theorem fair_deliver (tail : Tail n p k) (spares : ∀ u, (k u).Obeys (sparing n p))
    (ls : List Listener) : ((Session.deliver name event ls).bind k).Fair n p := by
  induction ls with
  | nil => exact tail.fair ()
  | cons l ls ih =>
      rw [deliver_bind]
      cases l with
      | host => exact ih
      | pipeline m =>
          by_cases hm : m = n
          · subst hm
            refine fair_onSaved ⟨fun _ q same stage => ?_, fun _ => ih⟩ _
            exact rouses_deliver tail.wakeful ls same (.inr stage)
          · -- What becomes of the pipeline is up to those who are still to be called.
            by_cases calls : .pipeline n ∈ ls ∧ p.isAbout (event.field "payload") = true
            · refine .behind (obeys_keeping (obeys_onSaved m _) hm) (fun _ q same => ?_) fun _ => ih
              exact rouses_deliver tail.wakeful ls same (.inl calls)
            · refine .aside (obeys_aside (obeys_onSaved m _) hm) (fun _ => ?_) fun _ => ih
              refine .bind (obeys_deliver ls fun hmem => ?_) spares
              exact Bool.eq_false_iff.mpr fun about => calls ⟨hmem, about⟩

end Publishing

/-! ### Operations -/

section Operations

variable {n m : Nat} {p : Pipeline} {s t : Session}

theorem wakeful_done {β α : Type} {f : β → α} : Wakeful n p fun b => (.done (f b) : Work α) :=
  fun _ _ _ stage => stage

theorem tail_done {β α : Type} {f : β → α} : Tail n p fun b => (.done (f b) : Work α) :=
  ⟨wakeful_done, fun _ => trivial⟩

/-- Wherever an operation waits, it leaves a pipeline that is then taken down alone, or rouses it. -/
theorem fair_op (o : Op) : o.work.Fair n p := by
  cases o with
  | construct p' => exact trivial
  | publish event =>
      cases valid : Event.validate event with
      | error e =>
          rw [invalid_work valid]
          trivial
      | ok name =>
          rw [publish_work valid]
          exact fun s => fair_deliver tail_done (fun _ => trivial) _
  | deed m d =>
      cases d with
      | tearDown => exact fun _ => trivial
      | call c =>
          by_cases hm : m = n
          · subst hm
            cases c with
            | run => exact fair_run tail_done
            | reload => exact fun _ => fair_run tail_done
            | setConfigs configs => exact fair_setConfigs tail_done configs
            | saved payload =>
                have work : (Op.deed m (.call (.saved payload))).work =
                    (onSaved m payload).bind fun _ => .done () := Task.bind_assoc _ _ _
                rw [work]
                exact fair_onSaved tail_done payload
          · exact .aside (obeys_aside (obeys_call m c) hm) (fun _ => trivial) fun _ => trivial

/-! ### Operations elsewhere -/

/-- What is done elsewhere than to a pipeline. -/
def Op.Elsewhere (n : Nat) : Op → Prop
  | deed m _ => m ≠ n
  | construct _ | publish _ => True

theorem Spared.add (has : ∃ q, s.pipelines[n]? = some q) (p' : Pipeline) :
    Spared n s (s.addPipeline p') := by
  obtain ⟨q, hq⟩ := has
  have hlt : n < s.pipelines.length := (List.getElem?_eq_some_iff.mp hq).1
  refine ⟨List.getElem?_append_left hlt, fun name hname => ?_⟩
  simp only [Session.addPipeline] at hname
  split at hname
  · rw [Bus.listeners_subscribe] at hname
    split at hname
    next hrecord =>
      rcases List.mem_append.mp hname with hmem | hmem
      · rwa [hrecord]
      · cases List.mem_singleton.mp hmem
        exact absurd hlt (Nat.lt_irrefl _)
    next => exact hname
  · exact hname

theorem Spared.tearDown (hm : m ≠ n) (s : Session) : Spared n s (s.tearDownPipeline m) where
  pipeline := by
    rw [pipelines_tearDown]
    exact List.getElem?_modify_ne tornDown _ hm
  deaf := fun name hname => by
    rw [listeners_tearDown] at hname
    split at hname
    next h => exact h.2 ▸ List.mem_of_mem_erase hname
    next => exact hname

theorem obeys_op {o : Op} (elsewhere : o.Elsewhere n) : o.work.Obeys (sparing n p) := by
  cases o with
  | construct p' =>
      refine ⟨fun s retired => .add ?_ p'.built, trivial⟩
      obtain ⟨q, hq, -⟩ := retired.form
      exact ⟨q, hq⟩
  | publish event =>
      refine obeys_publish (lasting_sparing n p) fun s name m retired hears => ?_
      refine sparing_of_aside (obeys_aside (obeys_onSaved m _) ?_)
      rintro rfl
      exact retired.deaf name hears
  | deed m d =>
      cases d with
      | tearDown =>
          refine ⟨?_, fun _ => ⟨fun s _ => .tearDown elsewhere s, trivial⟩⟩
          rintro scope ⟨⟩
          exact elsewhere
      | call c =>
          exact .bind (sparing_of_aside (obeys_aside (obeys_call m c) elsewhere)) fun _ => trivial

end Operations

end Pipeline

end Toolbar
