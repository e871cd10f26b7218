/-
# `Toolbar.Proofs.Pipeline.Refresh` — who hears of a save holds the saved record

Several pipelines share a cache.  When one of them hears that its record was saved, it forgets the
keys of its own scope and loads again.  A pipeline that has begun to load before has the key of its
record there, so it asks the store, whoever put the cached record there.  A pipeline that was built
and never run has touched nothing: it forgets nothing, and takes the record that it finds.

    Reached    the states between operations that are done one after the other
    Heard      what a listener does with a saved record
    Hearing    what listeners do, one after the other
    Clean      what is cached under the key of a record is what the store has

So a listener that has begun holds the record of the store when all have heard.  One that has not
does so where the cache has no older record when it hears; two forms of one session show that it does
not in general.
-/
import Toolbar.Proofs.Pipeline.Deed
import Toolbar.Session.Publish

namespace Toolbar

namespace Pipeline

/-! ## Operations -/

/-- What is done in a session, to its end before anything else begins. -/
inductive Op where
  | construct (p : Pipeline)
  | deed (n : Nat) (d : Deed)
  | publish (event : Value)

/-- An operation as work; nobody looks at what it returns. -/
def Op.work : Op → Work Unit
  | construct p => Task.modify (Session.addPipeline p.built)
  | deed n d => d.work n
  | publish event => (Session.publish event).bind fun _ => .done ()

/-- Deeds are for pipelines that are there. -/
def Op.Applies (s : Session) : Op → Prop
  | deed n _ => n < s.pipelines.length
  | _ => True

/-- The states between operations, from an empty cache on; between operations the store changes. -/
inductive Reached (source : Source) : Shared Nat Session → Prop
  | start {s : Shared Nat Session} : (∀ key, s.cache.get? key = none) →
      s.outer.pipelines = [] → Reached source s
  | op {s t : Shared Nat Session} {number : Nat} (o : Op) : Reached source s →
      o.Applies s.outer →
      source.Alone number (fun u _ => u = t) (o.work.run source.supplier number s) →
      Reached source t
  | store {s t : Shared Nat Session} : Reached source s → Between s t → Reached source t

/-- Every pipeline of a session owns its record. -/
structure AllOwn (source : Source) (s : Shared Nat Session) : Prop where
  settled : Settled s
  owns : ∀ n p, s.outer.pipelines[n]? = some p → ∃ v, Owns source n p v s

section Owning

variable {source : Source} {n number : Nat} {p : Pipeline} {s t : Shared Nat Session}

namespace AllOwn

theorem between (h : AllOwn source s) (between : Between s t) : AllOwn source t where
  settled := h.settled.elsewhere between.cache between.within
  owns := fun n p hp => by
    rw [between.pipelines] at hp
    obtain ⟨v, owns⟩ := h.owns n p hp
    exact ⟨v, owns.between between⟩

theorem did (h : AllOwn source s) (did : Did source n p s t) : AllOwn source t := by
  obtain ⟨v, q, hq, -, aside, -⟩ := did
  refine ⟨aside.settled, fun m p' hp' => ?_⟩
  by_cases hm : m = n
  · subst hm
    cases hq.has.symm.trans hp'
    exact ⟨v, hq⟩
  · obtain ⟨w, owns⟩ := h.owns m p' ((aside.others m hm).symm.trans hp')
    exact ⟨w, owns.kept aside.settled (aside.others m hm) (aside.scopes m hm) aside.within⟩

theorem construct (h : AllOwn source s) (p : Pipeline) :
    AllOwn source { s with outer := s.outer.addPipeline p.built } := by
  have settled : Settled { s with outer := s.outer.addPipeline p.built } :=
    h.settled.elsewhere rfl (.refl _)
  refine ⟨settled, fun m p' hp' => ?_⟩
  rcases Nat.lt_trichotomy m s.outer.pipelines.length with hm | rfl | hm
  · have others : (s.outer.pipelines ++ [p.built])[m]? = s.outer.pipelines[m]? :=
      List.getElem?_append_left hm
    obtain ⟨v, owns⟩ := h.owns m p' (others.symm.trans hp')
    exact ⟨v, owns.kept settled others rfl (.refl _)⟩
  · have last : (s.outer.pipelines ++ [p.built])[s.outer.pipelines.length]? = some p.built :=
      List.getElem?_concat_length
    cases last.symm.trans hp'
    exact ⟨.null, .of_built settled last⟩
  · have none : (s.outer.pipelines ++ [p.built])[m]? = none :=
      List.getElem?_eq_none (by rw [List.length_append, List.length_singleton]; exact hm)
    cases none.symm.trans hp'

end AllOwn

end Owning

/-! ## Listeners -/

/-- What a listener does that hears that a record was saved. -/
inductive Heard (source : Source) (payload : Value) :
    Listener → Shared Nat Session → Shared Nat Session → Prop
  | noted {s : Shared Nat Session} (note : Note) :
      Heard source payload .host s { s with outer := s.outer.write note }
  | passed {n : Nat} {s : Shared Nat Session} : (s.outer.pipeline n).isAbout payload = false →
      Heard source payload (.pipeline n) s s
  | reloaded {n : Nat} {p q : Pipeline} {v : Value} {r : Except Fault (List Button.Shown)}
      {s t : Shared Nat Session} : s.outer.pipelines[n]? = some p → p.isAbout payload = true →
      Rerun source n p (s.left n) t v q r → Heard source payload (.pipeline n) s t

/-- What listeners do one after the other. -/
inductive Hearing (source : Source) (payload : Value) :
    List Listener → Shared Nat Session → Shared Nat Session → Prop
  | nil {s : Shared Nat Session} : Hearing source payload [] s s
  | cons {l : Listener} {ls : List Listener} {s t u : Shared Nat Session} :
      Heard source payload l s t → Hearing source payload ls t u →
      Hearing source payload (l :: ls) s u

section Listening

variable {source : Source} {payload event : Value} {l : Listener} {ls : List Listener}
  {n number : Nat} {p q : Pipeline} {s t u : Shared Nat Session}

theorem Heard.aside (all : AllOwn source s) (h : Heard source payload l s t) :
    ∃ n, Aside source n s t := by
  cases h with
  | @noted s note =>
      have passes : Passes source 0 s { s with outer := s.outer.write note } :=
        .outer all.settled (s.outer.write note) (.refl _) rfl rfl fun _ _ => rfl
      exact ⟨0, passes.toAside⟩
  | passed _ => exact ⟨0, (Passes.refl all.settled).toAside⟩
  | @reloaded n _ _ _ _ _ _ _ _ ran => exact ⟨n, (aside_left all.settled).trans ran.toAside⟩

theorem Heard.allOwn (all : AllOwn source s) (h : Heard source payload l s t) :
    AllOwn source t := by
  cases h with
  | noted note => exact all.between ⟨rfl, rfl, rfl, rfl, .refl _⟩
  | passed _ => exact all
  | reloaded _ _ ran => exact all.did (ran.did.of_left all.settled)

/-- A listener hears an event. -/
theorem hear_alone (all : AllOwn source s) (name : String) (event : Value) (l : Listener) :
    source.Alone number (fun t _ => Heard source (event.field "payload") l s t)
      ((Session.hear name event l).run source.supplier number s) := by
  cases l with
  | host => exact .finished (.noted _)
  | pipeline n =>
      rw [Session.hear, onSaved, Work.run_pipeline]
      cases habout : (s.outer.pipeline n).isAbout (event.field "payload") with
      | false => exact .finished (.passed habout)
      | true =>
          cases hp : s.outer.pipelines[n]? with
          | none =>
              -- What is no pipeline has no id.
              rw [Session.pipeline, hp] at habout
              simp [isAbout, default] at habout
          | some p =>
              obtain ⟨v, owns⟩ := all.owns n p hp
              rw [owns.pipeline] at habout
              refine (reload_alone owns.toStands owns.settled).bind ?_
              rintro t r ⟨v, q, ran⟩
              exact .finished (.reloaded hp habout ran)

theorem deliver_alone (all : AllOwn source s) (name : String) (event : Value)
    (ls : List Listener) :
    source.Alone number (fun t _ => Hearing source (event.field "payload") ls s t)
      ((Session.deliver name event ls).run source.supplier number s) := by
  induction ls generalizing s with
  | nil => exact .finished .nil
  | cons l ls ih =>
      refine (hear_alone all name event l).bind fun t _ heard => ?_
      exact (ih (heard.allOwn all)).mono fun u _ hearing => .cons heard hearing

/-- The listeners of an event hear it, in their order. -/
theorem publish_alone {name : String} (all : AllOwn source s)
    (valid : Event.validate event = .ok name) :
    source.Alone number
      (fun t r => r = .ok () ∧
        Hearing source (event.field "payload") (s.outer.bus.listeners name) s t)
      ((Session.publish event).run source.supplier number s) := by
  have run : (Session.publish event).run source.supplier number s =
      ((Session.deliver name event (s.outer.bus.listeners name)).bind fun _ =>
        .done (.ok ())).run source.supplier number s := by
    rw [Session.publish, valid]
    rfl
  rw [run]
  exact (deliver_alone all name event _).bind fun t _ hearing => .finished ⟨rfl, hearing⟩

/-- What each listener keeps is kept. -/
theorem Hearing.keeps {J : Shared Nat Session → Prop} (h : Hearing source payload ls s t)
    (all : AllOwn source s)
    (step : ∀ l s t, AllOwn source s → Heard source payload l s t → J s → J t) (hs : J s) :
    AllOwn source t ∧ J t := by
  induction h with
  | nil => exact ⟨all, hs⟩
  | cons heard _ ih => exact ih (heard.allOwn all) (step _ _ _ all heard hs)

theorem Hearing.append {ls' : List Listener} (h : Hearing source payload (ls ++ ls') s u) :
    ∃ t, Hearing source payload ls s t ∧ Hearing source payload ls' t u := by
  induction ls generalizing s with
  | nil => exact ⟨s, .nil, h⟩
  | cons l ls ih =>
      cases h with
      | cons heard rest =>
          obtain ⟨t, before, behind⟩ := ih rest
          exact ⟨t, .cons heard before, behind⟩

end Listening

/-- What every operation keeps. -/
theorem AllOwn.op {source : Source} {number : Nat} {s : Shared Nat Session} (all : AllOwn source s)
    (o : Op) (applies : o.Applies s.outer) :
    source.Alone number (fun t _ => AllOwn source t) (o.work.run source.supplier number s) := by
  cases o with
  | construct p => exact .finished (all.construct p)
  | deed n d =>
      obtain ⟨v, owns⟩ := all.owns n _ (List.getElem?_eq_getElem applies)
      exact (deed_alone owns d).mono fun t _ did => all.did did
  | publish event =>
      cases valid : Event.validate event with
      | error e =>
          have run : (Op.publish event).work.run source.supplier number s = (s, .finished ()) := by
            rw [Op.work, Session.publish, valid]
            rfl
          rw [run]
          exact .finished all
      | ok name =>
          refine (publish_alone all valid).bind ?_
          rintro t r ⟨-, hearing⟩
          exact .finished (hearing.keeps (J := fun _ => True) all (fun _ _ _ _ _ _ => trivial)
            trivial).1

/-- Between operations every pipeline owns its record. -/
theorem Reached.allOwn {source : Source} {s : Shared Nat Session} (h : Reached source s) :
    AllOwn source s := by
  induction h with
  | start empty none =>
      refine ⟨.of_empty empty, fun n p hp => ?_⟩
      rw [none] at hp
      cases hp
  | op o _ applies done ih =>
      obtain ⟨_, -, ⟨all, rfl⟩, -⟩ := ((ih.op o applies).and done).reaches
      exact all
  | store _ between ih => exact ih.between between

/-! ## Who holds which record -/

/-- The record of a pipeline, if it is loaded, is an answer. -/
def HoldsAnswer (answer : Except StoreFault Value) (n : Nat) (s : Shared Nat Session) : Prop :=
  ∀ q, s.outer.pipelines[n]? = some q → q.recordLoaded = true →
    answer = .ok (s.outer.shelf.get? q.record)

/-- A payload names a record that is stored. -/
structure Names (payload : Value) (entity id : String) : Prop where
  entity : payload.field "entity" = .text entity
  recordId : payload.field "record_id" = .text id
  stored : Record.isNew (some id) = false

/-- A pipeline about a record. -/
def IsAbout (entity id : String) (n : Nat) (s : Session) : Prop :=
  ∃ p, s.pipelines[n]? = some p ∧ p.entity = entity ∧ p.recordId = some id

/-- A pipeline about a record that has begun to load it. -/
def HasBegun (entity id : String) (n : Nat) (s : Session) : Prop :=
  ∃ p, s.pipelines[n]? = some p ∧ p.entity = entity ∧ p.recordId = some id ∧ p.stage ≠ .idle

instance {entity id : String} {n : Nat} {s : Session} : Decidable (IsAbout entity id n s) :=
  inferInstanceAs (Decidable (∃ p ∈ s.pipelines[n]?, p.entity = entity ∧ p.recordId = some id))

instance {entity id : String} {n : Nat} {s : Session} : Decidable (HasBegun entity id n s) :=
  inferInstanceAs (Decidable (∃ p ∈ s.pipelines[n]?,
    p.entity = entity ∧ p.recordId = some id ∧ p.stage ≠ .idle))

/-- If a record is in stock under a key, it is an answer. -/
def Clean (answer : Except StoreFault Value) (key : String) (stock : Stock) : Prop :=
  ∀ v, stock key = some v → answer = .ok v

theorem Names.of_isAbout {payload : Value} {entity id : String} {p : Pipeline}
    (h : Names payload entity id) (about : p.isAbout payload = true) :
    p.entity = entity ∧ p.recordId = some id := by
  simp only [isAbout, h.entity, h.recordId, Value.text?, Bool.and_eq_true, beq_iff_eq] at about
  exact ⟨(Option.some.inj about.1.1).symm, about.2.symm⟩

theorem Names.isAbout {payload : Value} {entity id : String} {n : Nat} {p : Pipeline} {s : Session}
    (h : Names payload entity id) (has : s.pipelines[n]? = some p) (hentity : p.entity = entity)
    (hid : p.recordId = some id) : (s.pipeline n).isAbout payload = true := by
  rw [Session.pipeline_of_getElem? has]
  simp [Pipeline.isAbout, h.entity, h.recordId, hentity, hid, Value.text?]

section Records

variable {source : Source} {payload : Value} {answer : Except StoreFault Value} {l : Listener}
  {ls : List Listener} {n : Nat} {p q : Pipeline} {s t u : Shared Nat Session}

/-- A listener leaves other pipelines alone. -/
theorem Heard.other (all : AllOwn source s) (h : Heard source payload l s t)
    (hl : l ≠ .pipeline n) (holds : HoldsAnswer answer n s) : HoldsAnswer answer n t := by
  cases h with
  | noted note => exact holds
  | passed _ => exact holds
  | @reloaded m _ _ _ _ _ _ has _ ran =>
      have others : t.outer.pipelines[n]? = s.outer.pipelines[n]? :=
        ran.others n fun hn => hl (hn ▸ rfl)
      intro q hq loaded
      rw [others] at hq
      obtain ⟨v, owns⟩ := all.owns n q hq
      have shows := owns.texts loaded
      rw [holds q hq loaded, shows.get?, (shows.within ran.within).get?]

theorem Heard.read (all : AllOwn source s) (h : Heard source payload l s t) :
    source.read t.outer.store = source.read s.outer.store := by
  obtain ⟨n, aside⟩ := h.aside all
  exact aside.read

/-- A pipeline stays about its record, and one that has begun does not become idle. -/
theorem Heard.pipeline (h : Heard source payload l s t) (has : s.outer.pipelines[n]? = some p) :
    ∃ q, t.outer.pipelines[n]? = some q ∧ SameRecord p q ∧ (p.stage ≠ .idle → q.stage ≠ .idle) := by
  cases h with
  | noted note => exact ⟨p, has, ⟨rfl, rfl⟩, id⟩
  | passed _ => exact ⟨p, has, ⟨rfl, rfl⟩, id⟩
  | @reloaded m p' q v r _ _ has' _ ran =>
      by_cases hm : n = m
      · subst hm
        cases has'.symm.trans has
        exact ⟨q, ran.has, .of_built ran.loaded.built, fun _ => ran.loaded.stage⟩
      · exact ⟨p, (ran.others n hm).trans has, ⟨rfl, rfl⟩, id⟩

variable {entity id : String}

theorem Heard.isAbout (h : Heard source payload l s t) (about : IsAbout entity id n s.outer) :
    IsAbout entity id n t.outer := by
  obtain ⟨p, has, hentity, hid⟩ := about
  obtain ⟨q, hq, same, -⟩ := h.pipeline has
  exact ⟨q, hq, same.entity.trans hentity, same.recordId.trans hid⟩

theorem Heard.hasBegun (h : Heard source payload l s t) (begun : HasBegun entity id n s.outer) :
    HasBegun entity id n t.outer := by
  obtain ⟨p, has, hentity, hid, hstage⟩ := begun
  obtain ⟨q, hq, same, stage⟩ := h.pipeline has
  exact ⟨q, hq, same.entity.trans hentity, same.recordId.trans hid, stage hstage⟩

theorem HasBegun.isAbout {s : Session} (h : HasBegun entity id n s) : IsAbout entity id n s := by
  obtain ⟨p, has, hentity, hid, -⟩ := h
  exact ⟨p, has, hentity, hid⟩

/-- A pipeline that has begun forgets the record, so the store is asked for it. -/
theorem HasBegun.answer_left (all : AllOwn source s) (stored : Record.isNew (some id) = false)
    (h : HasBegun entity id n s.outer) (read : String → String → Except StoreFault Value) :
    (s.left n).stock.answer read entity id = read entity id := by
  obtain ⟨p, has, rfl, hid, hstage⟩ := h
  obtain ⟨v, owns⟩ := all.owns n p has
  have touched := owns.begun hstage (by rw [hid]; exact stored)
  rw [Pipeline.key, hid, Option.getD_some] at touched
  refine Stock.answer_of_none _ read _ _ ?_
  rw [stock_left, if_pos touched]

/-- From a clean stock comes what the store answers. -/
theorem Clean.answer_left {read : String → String → Except StoreFault Value}
    (h : Clean (read entity id) (Record.key entity id) s.stock) (n : Nat) :
    (s.left n).stock.answer read entity id = read entity id := by
  rw [Stock.answer, stock_left]
  split
  next v hv =>
    split at hv
    · cases hv
    · exact (h v hv).symm
  next => rfl

/-- After all have heard, a listener holds the answer that each of its reloads gives it. -/
theorem Hearing.holdsAnswer {J : Shared Nat Session → Prop} (h : Hearing source payload ls s t)
    (all : AllOwn source s)
    (step : ∀ l s t, AllOwn source s → Heard source payload l s t → J s → J t)
    (reloads : ∀ s t, AllOwn source s → Heard source payload (.pipeline n) s t → J s →
      HoldsAnswer answer n t)
    (hs : J s) (holds : HoldsAnswer answer n s ∨ .pipeline n ∈ ls) : HoldsAnswer answer n t := by
  induction h with
  | nil => exact holds.resolve_right List.not_mem_nil
  | @cons l ls s t u heard _ ih =>
      refine ih (heard.allOwn all) (step _ _ _ all heard hs) ?_
      by_cases hl : l = .pipeline n
      · subst hl
        exact .inl (reloads _ _ all heard hs)
      · refine holds.imp (heard.other all hl) fun hmem => ?_
        exact (List.mem_cons.mp hmem).resolve_left (Ne.symm hl)

variable (names : Names payload entity id)

include names

/-- The answer about the record of a pipeline that reloads. -/
theorem Names.baseAnswer (hentity : p.entity = entity) (hid : p.recordId = some id)
    (read : String → String → Except StoreFault Value) (stock : Stock) :
    p.baseAnswer read stock = stock.answer read entity id := by
  rw [Pipeline.baseAnswer, hid, if_neg (Bool.eq_false_iff.mp names.stored), hentity,
    Option.getD_some]

/-- A listener about the record that was saved reloads, and holds what the store answers if this is
what it is given. -/
theorem Heard.reloads (h : Heard source payload (.pipeline n) s t)
    (about : IsAbout entity id n s.outer)
    (answers : (s.left n).stock.answer (source.read s.outer.store) entity id =
      source.read s.outer.store entity id) :
    HoldsAnswer (source.read s.outer.store entity id) n t := by
  obtain ⟨p, has, hentity, hid⟩ := about
  cases h with
  | passed deaf =>
      cases (names.isAbout has hentity hid).symm.trans deaf
  | reloaded has' _ ran =>
      cases has'.symm.trans has
      intro q' hq' loaded
      cases ran.has.symm.trans hq'
      rw [ran.shows.get?, ← answers, ← names.baseAnswer hentity hid]
      exact ran.loaded.answer_eq loaded

/-- A clean stock stays clean where there is a record; after the reload of a pipeline that has begun
it is. -/
theorem Heard.clean (all : AllOwn source s) (h : Heard source payload l s t)
    (nonnull : source.read s.outer.store entity id ≠ .ok .null)
    (clean : Clean (source.read s.outer.store entity id) (Record.key entity id) s.stock ∨
      ∃ m, l = .pipeline m ∧ HasBegun entity id m s.outer) :
    Clean (source.read s.outer.store entity id) (Record.key entity id) t.stock := by
  cases h with
  | noted note =>
      rcases clean with clean | ⟨_, hm, -⟩
      · exact clean
      · cases hm
  | passed deaf =>
      rcases clean with clean | ⟨m, hm, p, has, hentity, hid, -⟩
      · exact clean
      · cases hm
        cases (names.isAbout has hentity hid).symm.trans deaf
  | @reloaded m p q v r _ _ has about ran =>
      obtain ⟨hentity, hid⟩ := names.of_isAbout about
      have hkey : p.key = Record.key entity id := by
        rw [Pipeline.key, hentity, hid, Option.getD_some]
      have answers : p.baseAnswer (source.read s.outer.store) (s.left m).stock =
          source.read s.outer.store entity id := by
        rw [names.baseAnswer hentity hid]
        rcases clean with clean | ⟨_, hm, begun⟩
        · exact clean.answer_left m
        · cases hm
          exact begun.answer_left all names.stored _
      intro w hw
      rw [← hkey] at hw
      have kept : p.baseAnswer (source.read s.outer.store) (s.left m).stock = .ok w ∨
          p.baseAnswer (source.read s.outer.store) (s.left m).stock = .ok .null :=
        ran.keeps (by rw [hid]; exact names.stored) w hw
      rw [answers] at kept
      exact kept.resolve_right nonnull

/-- A listener that has begun holds what the store answers. -/
theorem Hearing.begun_fresh (h : Hearing source payload ls s t) (all : AllOwn source s)
    (begun : HasBegun entity id n s.outer) (listens : .pipeline n ∈ ls) :
    HoldsAnswer (source.read s.outer.store entity id) n t := by
  refine h.holdsAnswer (J := fun u => HasBegun entity id n u.outer ∧
    source.read u.outer.store = source.read s.outer.store) all ?_ ?_ ⟨begun, rfl⟩ (.inr listens)
  · rintro l u w hall heard ⟨hbegun, hread⟩
    exact ⟨heard.hasBegun hbegun, (heard.read hall).trans hread⟩
  · rintro u w hall heard ⟨hbegun, hread⟩
    rw [← hread]
    exact heard.reloads names hbegun.isAbout (hbegun.answer_left hall names.stored _)

/-- While the stock is clean, every listener holds what the store answers. -/
theorem Hearing.clean_fresh (h : Hearing source payload ls s t) (all : AllOwn source s)
    (nonnull : source.read s.outer.store entity id ≠ .ok .null)
    (about : IsAbout entity id n s.outer)
    (clean : Clean (source.read s.outer.store entity id) (Record.key entity id) s.stock)
    (listens : .pipeline n ∈ ls) :
    HoldsAnswer (source.read s.outer.store entity id) n t := by
  refine h.holdsAnswer (J := fun u => IsAbout entity id n u.outer ∧
    source.read u.outer.store = source.read s.outer.store ∧
    Clean (source.read s.outer.store entity id) (Record.key entity id) u.stock) all ?_ ?_
    ⟨about, rfl, clean⟩ (.inr listens)
  · rintro l u w hall heard ⟨habout, hread, hclean⟩
    rw [← hread] at hclean nonnull ⊢
    exact ⟨heard.isAbout habout, heard.read hall, heard.clean names hall nonnull (.inl hclean)⟩
  · rintro u w hall heard ⟨habout, hread, hclean⟩
    rw [← hread] at hclean ⊢
    exact heard.reloads names habout (hclean.answer_left n)

/-- Behind a listener that has begun the stock is clean. -/
theorem Hearing.clean {m : Nat} (h : Hearing source payload ls s t) (all : AllOwn source s)
    (nonnull : source.read s.outer.store entity id ≠ .ok .null)
    (clean : Clean (source.read s.outer.store entity id) (Record.key entity id) s.stock ∨
      .pipeline m ∈ ls ∧ HasBegun entity id m s.outer) :
    Clean (source.read s.outer.store entity id) (Record.key entity id) t.stock := by
  induction h with
  | nil => exact clean.resolve_right fun hmem => List.not_mem_nil hmem.1
  | @cons l ls s t u heard _ ih =>
      have read := heard.read all
      rw [read] at ih
      refine ih (heard.allOwn all) nonnull ?_
      rcases clean with clean | ⟨hmem, begun⟩
      · exact .inl (heard.clean names all nonnull (.inl clean))
      · rcases List.mem_cons.mp hmem with rfl | hmem
        · exact .inl (heard.clean names all nonnull (.inr ⟨m, rfl, begun⟩))
        · exact .inr ⟨hmem, heard.hasBegun begun⟩

end Records

/-! ## A save -/

section Saving

variable {source : Source} {s : Shared Nat Session} {event : Value} {entity id : String}

/-- **A save reaches every listener that has begun to load.**  Between operations, the publication
of a saved record ends.  Each pipeline that listens and is about the record holds, if it has a
record loaded then, the record that the store has, when it has begun to load before.  One that has
not holds it too, where the store has a record, when there was none in the cache before or a
pipeline about the record that had begun to load hears of it earlier. -/
theorem saved_refreshes (reached : Reached source s)
    (valid : Event.validate event = .ok Event.recordSaved)
    (names : Names (event.field "payload") entity id) (number : Nat) :
    source.Alone number
      (fun t r => r = .ok () ∧ source.read t.outer.store = source.read s.outer.store ∧
        ∀ n p, s.outer.pipelines[n]? = some p →
          .pipeline n ∈ s.outer.bus.listeners Event.recordSaved →
          p.entity = entity → p.recordId = some id →
          ∃ q, t.outer.pipelines[n]? = some q ∧ (q.recordLoaded = true →
            p.stage ≠ .idle ∨
              source.read s.outer.store entity id ≠ .ok .null ∧
                (s.cache.record? (Record.key entity id) = none ∨
                  ∃ before after m, s.outer.bus.listeners Event.recordSaved =
                      before ++ .pipeline n :: after ∧
                    .pipeline m ∈ before ∧ HasBegun entity id m s.outer) →
            source.read t.outer.store entity id = .ok (t.outer.shelf.get? q.record)))
      ((Session.publish event).run source.supplier number s) := by
  have all := reached.allOwn
  refine (publish_alone all valid).mono ?_
  rintro t r ⟨hr, hearing⟩
  refine ⟨hr, ?_⟩
  have read : source.read t.outer.store = source.read s.outer.store :=
    (hearing.keeps (J := fun u => source.read u.outer.store = source.read s.outer.store) all
      (fun l u w hall heard hu => (heard.read hall).trans hu) rfl).2
  refine ⟨read, fun n p has listens hentity hid => ?_⟩
  have about : IsAbout entity id n s.outer := ⟨p, has, hentity, hid⟩
  obtain ⟨-, q, hq, -, -⟩ := hearing.keeps (J := fun u => IsAbout entity id n u.outer) all
    (fun l u w _ heard hu => heard.isAbout hu) about
  refine ⟨q, hq, fun loaded condition => ?_⟩
  rw [read]
  rcases condition with hstage | ⟨nonnull, missing | ⟨before, after, m, hlisteners, hm, begun⟩⟩
  · exact hearing.begun_fresh names all ⟨p, has, hentity, hid, hstage⟩ listens q hq loaded
  · have clean : Clean (source.read s.outer.store entity id) (Record.key entity id) s.stock := by
      intro v hv
      rw [Shared.stock, missing] at hv
      cases hv
    exact hearing.clean_fresh names all nonnull about clean listens q hq loaded
  · rw [hlisteners] at hearing
    obtain ⟨u, hbefore, hbehind⟩ := hearing.append
    have clean := hbefore.clean names all nonnull (.inr ⟨hm, begun⟩)
    obtain ⟨hall, hread, habout⟩ := hbefore.keeps (J := fun u =>
      source.read u.outer.store = source.read s.outer.store ∧ IsAbout entity id n u.outer) all
      (fun l u w hall heard hu => ⟨(heard.read hall).trans hu.1, heard.isAbout hu.2⟩)
      ⟨rfl, about⟩
    rw [← hread] at clean nonnull ⊢
    exact hbehind.clean_fresh names hall nonnull habout clean List.mem_cons_self q hq loaded

end Saving

/-! ## Two forms and a save -/

/-- A contact whose owner is an account. -/
def owned (account : String) : Store :=
  { records :=
      [("contact", [("c1", .map
          [(Lookup.idKey "owner", .text "a1"), (Lookup.entityKey "owner", .text "account")])]),
        ("account", [("a1", .map [("name", .text account)])])] }

/-- The form of the contact, with a button that names the owner. -/
def ownerForm : Pipeline :=
  { entity := "contact", recordId := some "c1",
    configs := [{ label := .text "\x7bowner.name\x7d" }] }

/-- The form of the account, with a button that names it. -/
def nameForm : Pipeline :=
  { entity := "account", recordId := some "a1", configs := [{ label := .text "\x7bname\x7d" }] }

def formSource : Source :=
  .ofSession 5 (.int 1)

/-- The state after operations that do not have to wait. -/
def followed (ops : List Op) (s : Shared Nat Session) : Shared Nat Session :=
  ops.foldl (fun s o => (o.work.run formSource.supplier 0 s).1) s

/-- The account gets another name. -/
def renamedTo (account : String) (s : Shared Nat Session) : Shared Nat Session :=
  { s with outer := { s.outer with store := owned account } }

/-- The account was saved. -/
def accountSaved : Value :=
  .map [("name", .text Event.recordSaved),
    ("payload", .map [("entity", .text "account"), ("record_id", .text "a1")]),
    ("meta", .map (Event.freshMeta "e1" "2025-06-02T00:00:00Z"))]

theorem validate_accountSaved : Event.validate accountSaved = .ok Event.recordSaved := by
  decide +kernel

theorem names_accountSaved : Names (accountSaved.field "payload") "account" "a1" where
  entity := rfl
  recordId := rfl
  stored := by decide +kernel

/-- Both forms are built; that of the contact has run and fetched the account. -/
def ownerShown : Shared Nat Session :=
  followed [.construct ownerForm, .construct nameForm, .deed 0 (.call .run)]
    { outer := { store := owned "Acme" } }

/-- The form of the account has run, too, and another one of it is built. -/
def attended : Shared Nat Session :=
  followed [.deed 1 (.call .run), .construct nameForm] ownerShown

theorem Reached.next {source : Source} {s : Shared Nat Session} (h : Reached source s) (o : Op)
    (applies : o.Applies s.outer)
    (now : (o.work.run source.supplier 0 s).2.result? = some ()) :
    Reached source (o.work.run source.supplier 0 s).1 :=
  .op o h applies (.of_result now rfl)

theorem Reached.renamedTo {source : Source} {s : Shared Nat Session} (h : Reached source s)
    (account : String) : Reached source (renamedTo account s) :=
  .store h ⟨rfl, rfl, rfl, rfl, .refl _⟩

theorem reached_ownerShown : Reached formSource ownerShown := by
  refine .next (.next (.next (.start (fun _ => rfl) rfl) (.construct ownerForm) trivial rfl)
    (.construct nameForm) trivial rfl) (.deed 0 (.call .run)) ?_ ?_
  · exact Nat.zero_lt_two
  · decide +kernel

theorem reached_attended : Reached formSource attended := by
  refine .next (.next reached_ownerShown (.deed 1 (.call .run)) ?_ ?_) (.construct nameForm)
    trivial rfl
  · show 1 < ownerShown.outer.pipelines.length
    decide +kernel
  · decide +kernel

/-- The form that has run and the one behind it that has not both hold the account of now. -/
theorem attended_refreshes :
    formSource.Alone 1
      (fun t r => r = .ok () ∧ ∀ n ∈ [1, 2], ∃ q, t.outer.pipelines[n]? = some q ∧
        q.recordLoaded = true ∧
        formSource.read t.outer.store "account" "a1" = .ok (t.outer.shelf.get? q.record))
      ((Session.publish accountSaved).run formSource.supplier 1 (renamedTo "Zenith" attended)) := by
  have ended : ((Session.publish accountSaved).run formSource.supplier 1
      (renamedTo "Zenith" attended)).2.result? = some (.ok ()) := by decide +kernel
  have loaded : ∀ n ∈ [1, 2], ∃ q ∈ ((Session.publish accountSaved).run formSource.supplier 1
      (renamedTo "Zenith" attended)).1.outer.pipelines[n]?, q.recordLoaded = true := by
    decide +kernel
  obtain ⟨-, -, fresh⟩ := (saved_refreshes (reached_attended.renamedTo "Zenith")
    validate_accountSaved names_accountSaved 1).at_result ended
  refine .of_result ended ⟨rfl, ?_⟩
  generalize (Session.publish accountSaved).run formSource.supplier 1 _ = done at fresh loaded ⊢
  have listeners : (renamedTo "Zenith" attended).outer.bus.listeners Event.recordSaved =
      [.pipeline 0, .pipeline 1, .pipeline 2] := by decide +kernel
  have begun : HasBegun "account" "a1" 1 attended.outer := by decide +kernel
  have unstarted : IsAbout "account" "a1" 2 attended.outer := by decide +kernel
  have nonnull : formSource.read (owned "Zenith") "account" "a1" ≠ .ok .null := by
    intro hnull
    have named : (formSource.read (owned "Zenith") "account" "a1").toOption.map (·.isNull) =
        some false := by decide +kernel
    rw [hnull] at named
    cases named
  intro n hn
  have holds : ∃ q, done.1.outer.pipelines[n]? = some q ∧ (q.recordLoaded = true →
      formSource.read done.1.outer.store "account" "a1" =
        .ok (done.1.outer.shelf.get? q.record)) := by
    rcases List.mem_pair.mp hn with rfl | rfl
    · obtain ⟨p, has, hentity, hid, hstage⟩ := begun
      obtain ⟨q, hq, fresh⟩ := fresh 1 p has (by rw [listeners]; decide) hentity hid
      exact ⟨q, hq, fun loaded => fresh loaded (.inl hstage)⟩
    · obtain ⟨p, has, hentity, hid⟩ := unstarted
      obtain ⟨q, hq, fresh⟩ := fresh 2 p has (by rw [listeners]; decide) hentity hid
      have behind : ∃ before after m,
          (renamedTo "Zenith" attended).outer.bus.listeners Event.recordSaved =
            before ++ .pipeline 2 :: after ∧
          .pipeline m ∈ before ∧ HasBegun "account" "a1" m (renamedTo "Zenith" attended).outer :=
        ⟨[.pipeline 0, .pipeline 1], [], 1, listeners, by decide, begun⟩
      exact ⟨q, hq, fun loaded => fresh loaded (.inr ⟨nonnull, .inr behind⟩)⟩
  obtain ⟨q, hq, fresh⟩ := holds
  obtain ⟨_, hq', hloaded⟩ := loaded n hn
  cases hq.symm.trans hq'
  exact ⟨q, hq, hloaded, fresh hloaded⟩

/-- **A pipeline that was built and never run may take the record of before.**  The form of the
contact has fetched the account.  When the form of the account hears of the save, it has no key in
its scope to forget. -/
theorem unstarted_stale :
    ¬ ∀ (source : Source) (s : Shared Nat Session) (event : Value) (entity id : String)
        (number : Nat),
      Reached source s → Event.validate event = .ok Event.recordSaved →
      Names (event.field "payload") entity id →
      source.Alone number
        (fun t _ => ∀ n p, s.outer.pipelines[n]? = some p →
          .pipeline n ∈ s.outer.bus.listeners Event.recordSaved →
          p.entity = entity → p.recordId = some id →
          ∃ q, t.outer.pipelines[n]? = some q ∧ (q.recordLoaded = true →
            source.read t.outer.store entity id = .ok (t.outer.shelf.get? q.record)))
        ((Session.publish event).run source.supplier number s) := by
  intro always
  have ended : ((Session.publish accountSaved).run formSource.supplier 1
      (renamedTo "Zenith" ownerShown)).2.result? = some (.ok ()) := by decide +kernel
  have fresh := (always formSource _ accountSaved "account" "a1" 1
    (reached_ownerShown.renamedTo "Zenith") validate_accountSaved
    names_accountSaved).at_result ended
  have about : IsAbout "account" "a1" 1 ownerShown.outer := by decide +kernel
  obtain ⟨p, has, hentity, hid⟩ := about
  obtain ⟨q, hq, fresh⟩ := fresh 1 p has (by decide +kernel) hentity hid
  -- It has loaded the record of before, which the store does not have any more.
  let done := ((Session.publish accountSaved).run formSource.supplier 1
    (renamedTo "Zenith" ownerShown)).1.outer
  have held : ∃ q ∈ done.pipelines[1]?, q.recordLoaded = true ∧
      ((done.shelf.get? q.record).field "name").text? = some "Acme" := by decide +kernel
  have stored : (formSource.read done.store "account" "a1").toOption.map
      (fun v => (v.field "name").text?) = some (some "Zenith") := by decide +kernel
  obtain ⟨_, hq', hloaded, hname⟩ := held
  cases hq.symm.trans hq'
  rw [fresh hloaded] at stored
  exact absurd (hname.symm.trans (Option.some.inj stored)) (by decide)

end Pipeline

end Toolbar
