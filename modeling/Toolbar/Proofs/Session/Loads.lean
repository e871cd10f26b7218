/-
# `Toolbar.Proofs.Session.Loads` — which records are loaded, and how often

A session writes down each load when it asks for it.  What a resolution that runs alone loads is a
matter of its stock: a record that is in stock is not loaded again, a record that could not be had
is.  So over a store with one answer for each key the loads can be counted against what the
resolution asks for: each record that there is, is loaded once, however often and on whatever chains
it is asked for, and through whatever pairs with its key.

    Ledger      the stock of a session and its loads so far
    Accounts    a ledger fits what was asked for
    twice       the same work two times in a row
-/
import Toolbar.Proofs.Template.Hops

namespace Toolbar

/-! ## Loads that are written down -/

/-- The load that a note tells of. -/
def Note.load? : Note → Option (String × String)
  | .asked (.record entity id) => some (entity, id)
  | _ => none

/-- The loads that a session has written down. -/
def Session.loads (s : Session) : List (String × String) :=
  s.notes.filterMap Note.load?

namespace Session

theorem loads_write (s : Session) (note : Note) :
    (s.write note).loads = s.loads ++ note.load?.toList := by
  rw [loads, write, List.filterMap_append]
  cases h : note.load? <;> simp [loads, h]

theorem loads_serve (r : Request) (s : Session) : (s.serve r).1.loads = s.loads := by
  have hnotes : ∀ (s : Session) (answer : Except StoreFault Value),
      (s.hand answer).1.notes = s.notes := by
    intro s answer
    rcases answer with f | v
    · rfl
    · cases hnull : v.isNull <;> simp only [hand, hnull] <;> rfl
  rw [serve_eq_hand, loads, hnotes]
  rfl

theorem loads_ask (attempts : Nat) (delay : Number) (n wait : Nat) (entity id : String)
    (s : Session) : ((supplier attempts delay).ask n wait (.record entity id) s).1.loads =
      s.loads ++ [(entity, id)] := by
  simp only [supplier]
  split
  · rw [loads_write, loads_write]
    exact List.append_nil _
  · rw [loads_serve, loads_write]
    rfl

end Session

/-- A list of the loads of a source: each request for a record is one more. -/
structure Source.Log (source : Source) where
  loads : Session → List (String × String)
  asks : ∀ {entity id} {s t : Session}, source.Asks entity id s t →
    loads t = loads s ++ [(entity, id)]

/-- What a session writes down is such a list, whether replies are held back or not. -/
def Session.log (attempts : Nat) (delay : Number) : (Source.ofSession attempts delay).Log where
  loads := Session.loads
  asks := fun {entity id s t} h => by
    cases h with
    | @answered n wait t reply hask =>
        have asked := s.loads_ask attempts delay n wait entity id
        rw [show (supplier attempts delay).ask n wait _ s = (t, some reply) from hask] at asked
        exact asked
    | @held n wait t hask =>
        have asked := s.loads_ask attempts delay n wait entity id
        rw [show (supplier attempts delay).ask n wait _ s = (t, none) from hask] at asked
        exact (loads_serve _ t).trans asked

/-! ## The stock and the loads -/

/-- Records in stock, and the loads so far. -/
structure Ledger where
  stock : Stock
  loads : List (String × String)

/-- The ledger of a state. -/
def Source.Log.ledger {source : Source} (log : source.Log) (s : Shared Nat Session) : Ledger :=
  ⟨s.stock, log.loads s.outer⟩

/-- Answers from the stock, and else by a load. -/
def Loader.ledger (read : String → String → Except StoreFault Value) (base : Value) :
    Loader Ledger where
  base := fun _ => base
  fetch := fun entity id ledger =>
    (recordOf (ledger.stock.answer read entity id),
      { stock := ledger.stock.after read entity id
        loads := match ledger.stock (Record.key entity id) with
          | some _ => ledger.loads
          | none => ledger.loads ++ [(entity, id)] })

/-- A resolution that runs alone loads what it loads by its ledger. -/
theorem resolve_ledger {source : Source} (log : source.Log) {n number : Nat}
    {s : Shared Nat Session} {place : Option Nat} {base : Value} {α : Type} (r : Resolution α)
    (h : Settled s) (hplace : s.outer.shelf.Shows base place) :
    source.Alone number
      (fun t a => Reads source n s t ∧ (a, log.ledger t) =
        r.under (.ledger (source.read s.outer.store) base) (log.ledger s))
      ((Work.resolve place n r).run source.supplier number s) := by
  induction r generalizing s with
  | done a => exact .finished ⟨.refl h, rfl⟩
  | look next ih =>
      simp only [Work.resolve, Task.run, hplace.get?]
      exact ih base h hplace
  | fetch entity id next ih =>
      rw [Work.resolve_fetch]
      refine fetch_served h fun t reply replied served => ?_
      rw [Work.run_goOn replied.tells.reports]
      refine (ih _ replied.settled (hplace.within replied.within)).mono ?_
      rintro u a ⟨reads, hunder⟩
      refine ⟨replied.toReads.trans reads, ?_⟩
      have hloads : log.loads t.outer = match s.stock (Record.key entity id) with
          | some _ => log.loads s.outer
          | none => log.loads s.outer ++ [(entity, id)] := by
        cases hstock : s.stock (Record.key entity id) with
        | some v => rw [served.hit (by rw [hstock]; exact Option.some_ne_none v)]
        | none => exact log.asks (served.miss hstock)
      rw [hunder, replied.read, Source.Log.ledger, replied.stock, hloads]
      rfl

/-! ## Accounts -/

/-- The keys of what was asked for. -/
def keysOf (asked : List (String × String)) : List String :=
  asked.map fun entry => Record.key entry.1 entry.2

theorem keysOf_concat (asked : List (String × String)) (e i : String) :
    keysOf (asked ++ [(e, i)]) = keysOf asked ++ [Record.key e i] :=
  List.map_append

theorem mem_keysOf_concat {asked : List (String × String)} {e i key : String} :
    key ∈ keysOf (asked ++ [(e, i)]) ↔ key ∈ keysOf asked ∨ key = Record.key e i := by
  rw [keysOf_concat, List.mem_append, List.mem_singleton]

/-- A store has one record for each key. -/
def OneForKey (store : String → String → Option Value) : Prop :=
  ∀ e i e' i', Record.key e i = Record.key e' i' → store e i = store e' i'

/-- A ledger that began without stock fits what was asked for: in stock is what the store has of it,
and of this each record was loaded once. -/
structure Accounts (store : String → String → Option Value) (before : List (String × String))
    (ledger : Ledger) (asked : List (String × String)) : Prop where
  stock : ∀ e i, ledger.stock (Record.key e i) =
    if Record.key e i ∈ keysOf asked then store e i else none
  loads : ∃ loads, ledger.loads = before ++ loads ∧ loads ⊆ asked ∧
    ∀ e i, store e i ≠ none →
      (keysOf loads).count (Record.key e i) = if Record.key e i ∈ keysOf asked then 1 else 0

namespace Accounts

variable {store : String → String → Option Value} {before : List (String × String)}
  {ledger : Ledger} {asked : List (String × String)} {e i : String}

theorem initial {ledger : Ledger} (h : ∀ key, ledger.stock key = none) :
    Accounts store ledger.loads ledger [] where
  stock := fun _ _ => h _
  loads := ⟨[], (List.append_nil _).symm, List.Subset.refl _, fun _ _ _ => rfl⟩

/-- What is in stock has been asked for. -/
theorem of_stock (h : Accounts store before ledger asked) {v : Value}
    (hstock : ledger.stock (Record.key e i) = some v) :
    Record.key e i ∈ keysOf asked ∧ store e i = some v := by
  rw [h.stock] at hstock
  split at hstock
  next hmem => exact ⟨hmem, hstock⟩
  next => cases hstock

/-- A record in stock is asked for again. -/
theorem hit (h : Accounts store before ledger asked) {v : Value}
    (hstock : ledger.stock (Record.key e i) = some v) :
    Accounts store before ledger (asked ++ [(e, i)]) := by
  obtain ⟨hmem, -⟩ := h.of_stock hstock
  obtain ⟨loads, hloads, hsub, hcount⟩ := h.loads
  have same : ∀ key, key ∈ keysOf (asked ++ [(e, i)]) ↔ key ∈ keysOf asked := by
    intro key
    rw [mem_keysOf_concat]
    constructor
    · rintro (hkey | rfl)
      · exact hkey
      · exact hmem
    · exact Or.inl
  constructor
  · intro e' i'
    simp only [same]
    exact h.stock e' i'
  · refine ⟨loads, hloads, fun _ hload => List.mem_append_left _ (hsub hload), ?_⟩
    intro e' i' hsome
    simp only [same]
    exact hcount e' i' hsome

/-- A record that is not in stock is loaded. -/
theorem miss (one : OneForKey store) (h : Accounts store before ledger asked)
    (hstock : ledger.stock (Record.key e i) = none) :
    Accounts store before ⟨Function.update ledger.stock (Record.key e i) (store e i),
      ledger.loads ++ [(e, i)]⟩ (asked ++ [(e, i)]) := by
  obtain ⟨loads, hloads, hsub, hcount⟩ := h.loads
  constructor
  · intro e' i'
    dsimp only
    rw [Function.update_apply]
    by_cases hkey : Record.key e' i' = Record.key e i
    · rw [if_pos hkey, if_pos (mem_keysOf_concat.mpr (.inr hkey)), one e i e' i' hkey.symm]
    · rw [if_neg hkey, h.stock]
      simp only [mem_keysOf_concat, hkey, or_false]
  · refine ⟨loads ++ [(e, i)], ?_, ?_, ?_⟩
    · rw [hloads, List.append_assoc]
    · exact List.append_subset.mpr ⟨fun _ hload => List.mem_append_left _ (hsub hload),
        fun _ hload => List.mem_append_right _ hload⟩
    · intro e' i' hsome
      rw [keysOf_concat, List.count_append, hcount e' i' hsome]
      by_cases hkey : Record.key e' i' = Record.key e i
      · -- A record that there is would be in stock, had its key been asked for.
        have hnew : Record.key e' i' ∉ keysOf asked := by
          intro hmem
          rw [← hkey, h.stock, if_pos hmem] at hstock
          exact hsome hstock
        rw [if_neg hnew, if_pos (mem_keysOf_concat.mpr (.inr hkey)), hkey, List.count_singleton_self]
      · have hother : [Record.key e i].count (Record.key e' i') = 0 :=
          List.count_eq_zero.mpr (by simpa using hkey)
        simp only [hother, mem_keysOf_concat, hkey, or_false, Nat.add_zero]

end Accounts

/-- A record is no null, so it is the record of an answer that gives it. -/
theorem recordOf_ok {answer : Except StoreFault Value} {v : Value} (h : recordOf answer = some v) :
    recordOf (.ok v) = some v := by
  rcases answer with f | w
  · cases h
  · rw [recordOf] at h
    split at h
    next => cases h
    next hnull =>
      cases h
      exact if_neg hnull

/-- A fetch by a ledger that fits gives what the store has, and the ledger fits after it. -/
theorem accounts_fetch {read : String → String → Except StoreFault Value} {base : Value}
    (one : OneForKey fun e i => recordOf (read e i)) {before asked : List (String × String)}
    {ledger : Ledger} (h : Accounts (fun e i => recordOf (read e i)) before ledger asked)
    (e i : String) :
    ((Loader.ledger read base).fetch e i ledger).1 = recordOf (read e i) ∧
      Accounts (fun e i => recordOf (read e i)) before
        ((Loader.ledger read base).fetch e i ledger).2 (asked ++ [(e, i)]) := by
  cases hstock : ledger.stock (Record.key e i) with
  | none =>
      have hanswer := Stock.answer_of_none ledger.stock read e i hstock
      have hmiss := h.miss one hstock
      simp only [Loader.ledger, Stock.after, hanswer, hstock]
      exact ⟨trivial, hmiss⟩
  | some v =>
      obtain ⟨-, hrecord⟩ := h.of_stock hstock
      have hanswer : ledger.stock.answer read e i = .ok v := by rw [Stock.answer, hstock]
      have hsame : Function.update ledger.stock (Record.key e i) (some v) = ledger.stock := by
        rw [← hstock, Function.update_eq_self]
      simp only [Loader.ledger, Stock.after, hanswer, recordOf_ok hrecord, hstock, hsame]
      exact ⟨hrecord.symm, h.hit hstock⟩

/-- What work that runs alone comes to is what it comes to with the store itself, and its ledger
fits what it asks for then. -/
theorem resolve_accounts {source : Source} (log : source.Log) {n number : Nat}
    {s : Shared Nat Session} {place : Option Nat} {base : Value} {α : Type} (r : Resolution α)
    (h : Settled s) (hplace : s.outer.shelf.Shows base place)
    {read : String → String → Except StoreFault Value} (hread : source.read s.outer.store = read)
    (one : OneForKey fun e i => recordOf (read e i)) {before asked : List (String × String)}
    (accounts : Accounts (fun e i => recordOf (read e i)) before (log.ledger s) asked) :
    source.Alone number
      (fun t a => Reads source n s t ∧
        a = r.direct base (fun e i => recordOf (read e i)) ∧
        Accounts (fun e i => recordOf (read e i)) before (log.ledger t)
          (asked ++ r.asks base fun e i => recordOf (read e i)))
      ((Work.resolve place n r).run source.supplier number s) := by
  refine (resolve_ledger log r h hplace).mono ?_
  rintro t a ⟨reads, hunder⟩
  rw [hread] at hunder
  have alike := Resolution.under_alike (.ledger read base)
    (.trace base fun e i => recordOf (read e i)) (Accounts (fun e i => recordOf (read e i)) before)
    (fun _ _ _ => rfl) (fun e i _ _ accounts => accounts_fetch one accounts e i) r accounts
  rw [Resolution.under_trace, ← hunder] at alike
  exact ⟨reads, alike.1, alike.2⟩

/-! ## The same work two times -/

/-- The same work two times in a row. -/
def Work.twice {α : Type} (w : Work α) : Work (α × α) :=
  Task.bind w fun a => Task.bind w fun b => .done (a, b)

/-- **What is resolved again is not loaded again.**  Texts are resolved two times in a row for one
scope, over a cache that is empty at first and a store that has one record for each key.  Both times
they come to the same.  Each record that there is and that they ask for is loaded once in all, and
no other is loaded.  They ask for hops of their references only: a reference to a key has none, and
none lies behind a hop that is broken.  When they are resolved without a fault they ask for all of
these. -/
theorem resolveAll_twice {source : Source} (log : source.Log) {n number : Nat}
    {s : Shared Nat Session} {place : Option Nat} {base : Value}
    (empty : ∀ key, s.cache.get? key = none) (shows : s.outer.shelf.Shows base place)
    (one : OneForKey fun e i => recordOf (source.read s.outer.store e i))
    (texts : List (Option String)) :
    let store := fun e i => recordOf (source.read s.outer.store e i)
    let work := (Template.resolveAll (texts.map Value.ofText?)).run
    let asked := work.asks base store
    source.Alone number
        (fun t (a, b) => a = b ∧ a = work.direct base store ∧
          ∃ loads, log.loads t.outer = log.loads s.outer ++ loads ∧ loads ⊆ asked ∧
            ∀ e i, store e i ≠ none → (keysOf loads).count (Record.key e i) =
              if Record.key e i ∈ keysOf asked then 1 else 0)
        ((Work.twice (Work.resolve place n work)).run source.supplier number s) ∧
      (∀ e i, (e, i) ∈ asked → Template.Takes store base texts e i) ∧
      ∀ rs, work.direct base store = .ok rs →
        ∀ e i, Template.Takes store base texts e i → (e, i) ∈ asked := by
  intro store work asked
  refine ⟨?_, fun e i => Template.takes_of_mem_asks, fun rs hdone e i =>
    Template.mem_asks_of_takes hdone⟩
  have stockless : ∀ key, (log.ledger s).stock key = none :=
    congrFun (Settled.stock_of_empty empty)
  refine (resolve_accounts log work (.of_empty empty) shows rfl one (.initial stockless)).bind ?_
  rintro t a ⟨reads, rfl, accounts⟩
  refine (resolve_accounts log work reads.settled (shows.within reads.within) reads.read one
    accounts).bind ?_
  rintro u b ⟨-, rfl, accounts⟩
  obtain ⟨loads, hloads, hsub, hcount⟩ := accounts.loads
  -- The second time nothing is asked for that was not asked for the first time.
  have again : ∀ key, key ∈ keysOf ([] ++ asked ++ asked) ↔ key ∈ keysOf asked := by
    intro key
    rw [keysOf, List.nil_append, List.map_append, List.mem_append, or_self]
    rfl
  refine .finished ⟨rfl, rfl, loads, hloads, ?_, ?_⟩
  · intro load hload
    exact (List.mem_append.mp (hsub hload)).elim id id
  · intro e i hsome
    exact (hcount e i hsome).trans (if_congr (again _) rfl rfl)

/-- A store without records of entities has nothing but faults and fixed answers for its keys. -/
theorem Store.oneForKey {store : Store} (h : store.records = []) :
    OneForKey fun e i => recordOf (store.answer (.record e i)) := by
  have missing : ∀ e i, recordOf (store.lookUp (.record e i)) = none := by
    intro e i
    simp only [lookUp, record?, ofEntity, h, List.lookup_nil, Option.getD_none]
    rfl
  intro e i e' i' hkey
  simp only [answer, keyOf, hkey]
  cases store.faults.lookup (Record.key e' i') with
  | some f => rfl
  | none =>
      cases store.fixed.lookup (Record.key e' i') with
      | some v => rfl
      | none => exact (missing e i).trans (missing e' i').symm

/-- A contact with an owner, whose account has a contact of its own, and a manager whose account is
gone. -/
def deskContact : Value :=
  .map [(Lookup.idKey "owner", .text "a1"), (Lookup.entityKey "owner", .text "account"),
    (Lookup.idKey "manager", .text "a2"), (Lookup.entityKey "manager", .text "account")]

/-- The contact of the account is owned by the account. -/
def deskSession : Shared Nat Session :=
  { outer :=
      { store := { fixed :=
          [("account:a1", .map [("name", .text "Acme"), (Lookup.idKey "first", .text "c1"),
              (Lookup.entityKey "first", .text "contact")]),
            ("contact:c1", .map [("name", .text "Pat"), (Lookup.idKey "owner", .text "a1"),
              (Lookup.entityKey "owner", .text "account")])] }
        shelf := ⟨[deskContact]⟩ } }

/-- Chains with one beginning, one that comes back to it, a key, and chains that break. -/
def desk : List (Option String) :=
  [some "\x7bowner.name\x7d, \x7bowner.first.name\x7d, \x7bowner.first.owner.name\x7d", none,
    some "\x7bowner.ID\x7d \x7bmanager.name\x7d \x7bmanager.first.name\x7d"]

/-- The two resolutions of these texts. -/
def deskTwice : Work (Except Fault (List Value) × Except Fault (List Value)) :=
  Work.twice (Work.resolve (some 0) 0 (Template.resolveAll (desk.map Value.ofText?)).run)

theorem desk_loads :
    ∃ a, (deskTwice.run (Session.supplier 5 (.int 1)) 0 deskSession).2.result? = some (a, a) ∧
      ∃ loads, (deskTwice.run (Session.supplier 5 (.int 1)) 0 deskSession).1.outer.loads = loads ∧
        (keysOf loads).count "account:a1" = 1 ∧ (keysOf loads).count "contact:c1" = 1 := by
  have one : OneForKey fun e i => recordOf (deskSession.outer.store.answer (.record e i)) :=
    Store.oneForKey rfl
  have shows : deskSession.outer.shelf.Shows deskContact (some 0) := rfl
  obtain ⟨alone, -, -⟩ := @resolveAll_twice _ (Session.log 5 (.int 1)) 0 0 deskSession (some 0)
    deskContact (fun _ => rfl) shows one desk
  have ended : (deskTwice.run (Session.supplier 5 (.int 1)) 0 deskSession).2.result?.isSome =
      true := by
    decide +kernel
  obtain ⟨⟨a, b⟩, hab⟩ := Option.isSome_iff_exists.mp ended
  obtain ⟨rfl, -, loads, hloads, -, hcount⟩ := alone.at_result hab
  refine ⟨a, hab, loads, hloads, ?_, ?_⟩
  · exact (hcount "account" "a1" (by decide +kernel)).trans (if_pos (by decide +kernel))
  · exact (hcount "contact" "c1" (by decide +kernel)).trans (if_pos (by decide +kernel))

end Toolbar
