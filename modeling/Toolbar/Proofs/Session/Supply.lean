/-
# `Toolbar.Proofs.Session.Supply` — stores whose answers may change

What a store may answer about an entity and an id is a relation: at one time it gives this record,
at another a different one, or a fault.  All that is asked of it is that a record which it may give
under one pair it may give under every pair with the same key, for these the cache cannot tell
apart.  How the machine sees it is a supplier, and a reply to each request that was held back; which
pauses and requests are over at once is left open, and pipelines are left alone.

    Coherent    the records of the cache are such as the store may give
    Onward      the state goes on: what lies on the shelf stays, pipelines stay as they are

Every turn of a fetch keeps both, and its reply tells what the store may answer (`Turns`).
-/
import Toolbar.Proofs.Cache.Turn
import Toolbar.Proofs.Session.FixedStore

namespace Toolbar

/-- A value is shown at a place: it lies there, or it is null and there is no place. -/
def Shelf.Shows (s : Shelf) (v : Value) : Option Nat → Prop
  | none => v = .null
  | some place => s.Holds place v

namespace Shelf.Shows

variable {s t : Shelf} {v : Value} {place : Option Nat}

theorem within (h : s.Shows v place) (hw : s.Within t) : t.Shows v place := by
  cases place with
  | none => exact h
  | some place => exact Holds.within h hw

theorem get? (h : s.Shows v place) : s.get? place = v := by
  cases place with
  | none => exact Eq.symm h
  | some place => exact Holds.get h

end Shelf.Shows

/-- The place of a record that was an answer shows it, and so does no place when there is none. -/
theorem Shelf.Tells.shows {s : Shelf} {v : Value} {reply : Except StoreFault (Option Nat)}
    (h : s.Tells (.ok v) reply) : ∃ place, reply = .ok place ∧ s.Shows v place := by
  rcases reply with f | _ | place
  · exact h.elim
  · refine ⟨none, rfl, ?_⟩
    cases v with
    | null => rfl
    | _ => cases h
  · exact ⟨some place, rfl, h.2⟩

/-! ## Supplies -/

/-- A session after another in which pipelines were left alone. -/
structure Later (serves : Session → Prop) (s t : Session) : Prop extends Follows serves s t where
  pipelines : t.pipelines = s.pipelines

/-- A store that may give any of several answers. -/
structure Supply where
  May : String → String → Except StoreFault Value → Prop
  same_key : ∀ {e i e' i' v}, Record.key e i = Record.key e' i' → v.isNull = false →
    May e i (.ok v) → May e' i' (.ok v)
  supplier : Supplier Nat StoreFault Session
  /-- The answer to a request that was held back. -/
  reply : Request → Session → Session × Except StoreFault (Option Nat)
  /-- The sessions in which the store gives such answers. -/
  Serves : Session → Prop
  serves_with : ∀ {s} pipelines shelf, Serves s → Serves { s with pipelines, shelf }
  pause_later : ∀ {s} n wait delay, Serves s → Later Serves s (supplier.pause n wait delay s).1
  ask_later : ∀ {s} n wait e i, Serves s →
    Later Serves s (supplier.ask n wait (.record e i) s).1
  ask_tells : ∀ {s} n wait e i r, Serves s → (supplier.ask n wait (.record e i) s).2 = some r →
    ∃ a, May e i a ∧ (supplier.ask n wait (.record e i) s).1.shelf.Tells a r
  reply_later : ∀ {s} e i, Serves s → Later Serves s (reply (.record e i) s).1
  reply_tells : ∀ {s} e i, Serves s →
    ∃ a, May e i a ∧ (reply (.record e i) s).1.shelf.Tells a (reply (.record e i) s).2

namespace Supply

theorem hand_pipelines (s : Session) (answer : Except StoreFault Value) :
    (s.hand answer).1.pipelines = s.pipelines := by
  rcases answer with f | v
  · rfl
  · cases hnull : v.isNull <;> simp only [Session.hand, hnull] <;> rfl

/-- What a session serves does not change what its store may answer. -/
theorem serve_later {May : String → String → Except StoreFault Value → Prop} (e i : String)
    {s : Session} (h : ∀ e i, May e i (s.store.answer (.record e i))) :
    Later (fun s => ∀ e i, May e i (s.store.answer (.record e i))) s
      (s.serve (.record e i)).1 := by
  rw [Session.serve_eq_hand]
  refine ⟨⟨?_, Session.hand_within { s with store := (s.store.serve _).1 } _⟩, ?_⟩
  · rw [Session.hand_store]
    exact h
  · exact hand_pipelines _ _

/-- The sessions whose stores give answers of a kind, as they serve them. -/
def ofSessions (attempts : Nat) (delay : Number)
    (May : String → String → Except StoreFault Value → Prop)
    (same_key : ∀ {e i e' i' v}, Record.key e i = Record.key e' i' → v.isNull = false →
      May e i (.ok v) → May e' i' (.ok v)) : Supply where
  May := May
  same_key := same_key
  supplier := Session.supplier attempts delay
  reply := Session.serve
  Serves := fun s => ∀ e i, May e i (s.store.answer (.record e i))
  serves_with := fun _ _ h => h
  pause_later := fun _ _ _ h => ⟨⟨h, .refl _⟩, rfl⟩
  ask_later := fun {s} _ _ e i h => by
    simp only [Session.supplier]
    split
    · exact ⟨⟨h, .refl _⟩, rfl⟩
    · have served := serve_later (s := s.write (.asked (.record e i))) e i h
      exact ⟨⟨served.serves, served.within⟩, served.pipelines⟩
  ask_tells := fun {s} _ _ e i r h hr => by
    simp only [Session.supplier] at hr ⊢
    split at hr
    · cases hr
    next hmanual =>
      rw [if_neg hmanual]
      cases hr
      exact ⟨_, h e i, Session.serve_tells (.record e i) rfl⟩
  reply_later := fun e i h => serve_later e i h
  reply_tells := fun {s} e i h => ⟨_, h e i, Session.serve_tells (.record e i) rfl⟩

/-- Sessions whose stores may answer anything. -/
def anything (attempts : Nat) (delay : Number) : Supply :=
  .ofSessions attempts delay (fun _ _ _ => True) fun _ _ _ => trivial

/-- The records that the store may have under an entity and an id, none among them. -/
def Found (supply : Supply) (entity id : String) (record : Option Value) : Prop :=
  ∃ a, supply.May entity id a ∧ recordOf a = record

/-- A reply tells what the store may answer. -/
def Told (supply : Supply) (shelf : Shelf) (entity id : String)
    (reply : Except StoreFault (Option Nat)) : Prop :=
  ∃ a, supply.May entity id a ∧ shelf.Tells a reply

/-! ## What goes on -/

/-- The records of the cache are such as the store may give. -/
structure Coherent (supply : Supply) (s : Shared Nat Session) : Prop where
  serves : supply.Serves s.outer
  ready : s.cache.AllReady fun key record => ∀ e i place, key = Record.key e i →
    record = some place → supply.Told s.outer.shelf e i (.ok (some place))

/-- A coherent state after another, in which pipelines were left alone. -/
structure Onward (supply : Supply) (s t : Shared Nat Session) : Prop where
  coherent : supply.Coherent t
  within : s.outer.shelf.Within t.outer.shelf
  pipelines : t.outer.pipelines = s.outer.pipelines

variable {supply : Supply} {s t u : Shared Nat Session}

theorem Told.within {shelf shelf' : Shelf} {e i : String} {place : Nat}
    (h : supply.Told shelf e i (.ok (some place))) (hw : shelf.Within shelf') :
    supply.Told shelf' e i (.ok (some place)) := by
  obtain ⟨a, hmay, htells⟩ := h
  rcases a with f | v
  · exact htells.elim
  · exact ⟨_, hmay, htells.1, htells.2.within hw⟩

theorem Told.reports {shelf : Shelf} {e i : String} {reply : Except StoreFault (Option Nat)}
    (h : supply.Told shelf e i reply) :
    ∃ record, supply.Found e i record ∧ shelf.Reports record reply := by
  obtain ⟨a, hmay, htells⟩ := h
  exact ⟨recordOf a, ⟨a, hmay, rfl⟩, htells.reports⟩

theorem Onward.trans (h : supply.Onward s t) (h' : supply.Onward t u) : supply.Onward s u :=
  ⟨h'.coherent, h.within.trans h'.within, h'.pipelines.trans h.pipelines⟩

namespace Coherent

theorem of_empty (serves : supply.Serves s.outer) (empty : ∀ key, s.cache.get? key = none) :
    supply.Coherent s :=
  ⟨serves, fun key _ hget => nomatch (empty key).symm.trans hget⟩

theorem onward (h : supply.Coherent s) : supply.Onward s s :=
  ⟨h, .refl _, rfl⟩

/-- The shelf may grow, and pipelines, scopes and waits may change. -/
theorem grow (h : supply.Coherent s) (outer : Session) (serves : supply.Serves outer)
    (within : s.outer.shelf.Within outer.shelf) (scopes : Scopes) (waits : Nat) :
    supply.Coherent { s with outer, scopes, waits } :=
  ⟨serves, fun key record hget e i place hkey hrecord =>
    (h.ready key record hget e i place hkey hrecord).within within⟩

theorem onPipeline (h : supply.Coherent s) (n : Nat) (f : Pipeline → Pipeline) :
    supply.Coherent { s with outer := s.outer.onPipeline n f } :=
  h.grow (s.outer.onPipeline n f) (supply.serves_with _ s.outer.shelf h.serves) (.refl _)
    s.scopes s.waits

theorem shelve (h : supply.Coherent s) (v : Value) :
    supply.Coherent { s with outer := (s.outer.shelve v).1 } :=
  h.grow (s.outer.shelve v).1
    (supply.serves_with s.outer.pipelines (s.outer.shelf.add v).1 h.serves)
    (Shelf.within_add s.outer.shelf v) s.scopes s.waits

/-- The session may go on by itself. -/
theorem later (h : supply.Coherent s) {outer : Session}
    (hlater : Later supply.Serves s.outer outer) (scopes : Scopes) (waits : Nat) :
    supply.Onward s { s with outer, scopes, waits } :=
  ⟨h.grow outer hlater.serves hlater.within scopes waits, hlater.within, hlater.pipelines⟩

theorem claim (h : supply.Coherent s) (key : String) :
    supply.Onward s { s with cache := (s.cache.claim key).1 } :=
  ⟨⟨h.serves, h.ready.claim key⟩, .refl _, rfl⟩

theorem invalidate (h : supply.Coherent s) (keys : List String) (scopes : Scopes) :
    supply.Onward s { s with cache := (s.cache.invalidate keys).1, scopes } :=
  ⟨⟨h.serves, h.ready.invalidate keys⟩, .refl _, rfl⟩

theorem touch (h : supply.Coherent s) (scope : Option Nat) (key : String) :
    supply.Onward s (s.touch scope key) := by
  cases scope with
  | none => exact h.onward
  | some n => exact h.later ⟨⟨h.serves, .refl _⟩, rfl⟩ _ s.waits

/-- A load ends with what the store may answer. -/
theorem finish (h : supply.Coherent s) (f : Fetch) (mark : Nat)
    {reply : Except StoreFault (Option Nat)}
    (told : supply.Told s.outer.shelf f.entity f.id reply) :
    supply.Onward s (f.finish mark reply s) := by
  rcases reply with fault | record
  · exact ⟨⟨h.serves, h.ready.abandon f.key mark⟩, .refl _, rfl⟩
  · refine ⟨⟨h.serves, h.ready.settle (fun e i place hkey hrecord => ?_) mark⟩, .refl _, rfl⟩
    subst hrecord
    obtain ⟨a, hmay, htells⟩ := told
    rcases a with fault | v
    · exact htells.elim
    · exact ⟨.ok v, supply.same_key hkey htells.1 hmay, htells⟩

end Coherent

/-! ## Fetches -/

/-- A fetch that has its answer tells what the store may answer; one that waits does no harm. -/
def Serviced (supply : Supply) (f : Fetch) (s : Shared Nat Session) :
    Shared Nat Session × Fetch.Turn Nat StoreFault → Prop
  | (t, .answered reply) => supply.Onward s t ∧ supply.Told t.outer.shelf f.entity f.id reply
  | (t, .waiting _) => supply.Onward s t

variable {f : Fetch}

theorem Serviced.of_onward {r : Shared Nat Session × Fetch.Turn Nat StoreFault}
    (h : supply.Onward s t) (served : supply.Serviced f t r) : supply.Serviced f s r := by
  obtain ⟨u, reply | phase⟩ := r
  · exact ⟨h.trans served.1, served.2⟩
  · exact h.trans served

/-- Every turn of a fetch is such. -/
theorem serviced_of_comes {left : Nat} {r : Shared Nat Session × Fetch.Turn Nat StoreFault}
    (h : supply.Coherent s) (comes : Fetch.Comes supply.supplier f left s r) :
    supply.Serviced f s r := by
  induction comes with
  | @hit left s place hplace =>
      have hget := Cache.record?_eq_some_iff.mp hplace
      exact ⟨h.onward, h.ready f.key _ hget f.entity f.id place rfl rfl⟩
  | @passed left wait delay s outer r hpause _ ih =>
      have hlater := supply.pause_later f.task wait delay h.serves
      rw [hpause] at hlater
      have passed := h.later hlater s.scopes s.waits
      exact .of_onward passed (ih passed.coherent)
  | @paused left attempt wait delay s outer hpause =>
      have hlater := supply.pause_later f.task wait delay h.serves
      rw [hpause] at hlater
      exact h.later hlater s.scopes (s.waits + 1)
  | @replied left wait s outer reply hask =>
      have hask : supply.supplier.ask f.task wait (.record f.entity f.id) s.outer =
        (outer, some reply) := hask
      have hlater := supply.ask_later f.task wait f.entity f.id h.serves
      have told := supply.ask_tells f.task wait f.entity f.id reply h.serves (by rw [hask])
      rw [hask] at hlater told
      have claimed := h.claim f.key
      have asked := claimed.trans (claimed.coherent.later hlater s.scopes s.waits)
      have finished := asked.coherent.finish f s.cache.nextMark told
      exact ⟨asked.trans finished, told⟩
  | @asked left wait s outer hask =>
      have hask : supply.supplier.ask f.task wait (.record f.entity f.id) s.outer =
        (outer, none) := hask
      have hlater := supply.ask_later f.task wait f.entity f.id h.serves
      rw [hask] at hlater
      have claimed := h.claim f.key
      exact claimed.trans (claimed.coherent.later hlater s.scopes (s.waits + 1))

end Supply

/-! ## Resolutions -/

/-- What a resolution may come to about a base record when each fetch finds one of the records that
the store may have. -/
inductive Resolution.Yields {α : Type} (found : String → String → Option Value → Prop)
    (base : Value) : Resolution α → α → Prop
  | done {a : α} : Yields found base (.done a) a
  | look {next : Value → Resolution α} {a : α} : Yields found base (next base) a →
      Yields found base (.look next) a
  | fetch {entity id : String} {next : Option Value → Resolution α} {record : Option Value}
      {a : α} : found entity id record → Yields found base (next record) a →
      Yields found base (.fetch entity id next) a

/-- Where the store has one record for each entity and id, it comes to what it comes to with the
store itself. -/
theorem Resolution.Yields.eq_direct {α : Type} {found : String → String → Option Value → Prop}
    {store : String → String → Option Value} (hfound : ∀ e i record, found e i record →
      record = store e i) {base : Value} {r : Resolution α} {a : α} (h : r.Yields found base a) :
    a = r.direct base store := by
  induction h with
  | done => rfl
  | look _ ih => exact ih
  | @fetch entity id next record a hrecord _ ih =>
      rw [hfound entity id record hrecord] at ih
      exact ih

end Toolbar
