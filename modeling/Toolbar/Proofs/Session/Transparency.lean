/-
# `Toolbar.Proofs.Session.Transparency` — the cache does not change what a call returns

Calls that read records run side by side over one cache: they follow chains of lookups, resolve
values and texts, and evaluate visibility expressions, each about a base record of its own and
through a scope of its own.  Keys are invalidated meanwhile, in any order.  If the answers of the
store do not change, each call returns what it returns by itself, with the store at every hop.

    Coherent     the record of an entry is the one that the store has for every pair with its key
    Awaits       what a call that waits still has to do gives its result
    Resolves     a call that runs on ends with its result, or waits on with it

Each step of a fetch keeps the first, a call keeps the other two by induction on its resolution, and
`Traffic.returned_direct` puts the runs of all calls together.
-/
import Toolbar.Expr.Visibility
import Toolbar.Proofs.Cache.Moment
import Toolbar.Proofs.Cache.Turn
import Toolbar.Proofs.Session.FixedStore

namespace Toolbar

/-! ## What is asked for -/

/-- What a call asks for about its base record. -/
inductive Query where
  /-- The record at the end of a chain of lookups. -/
  | chain (lookups : List String)
  /-- The value of a path. -/
  | value (path : List Char)
  /-- Texts with their references replaced. -/
  | texts (texts : List Value)
  /-- The truth of a visibility expression. -/
  | condition (lookups : Bool) (around : Surroundings) (source : Value)

/-- What a call returns. -/
inductive Answer where
  | chain (record : Except Fault Value)
  | value (v : Value)
  | texts (texts : Except Fault (List Value))
  | condition (holds : Bool)

/-- A query as a resolution. -/
def Query.resolution : Query → Resolution Answer
  | chain lookups => (Resolution.chain lookups).run.bind fun r => .done (.chain r)
  | value path => (Template.pathValue path).bind fun v => .done (.value v)
  | texts vs => (Template.resolveAll vs).run.bind fun r => .done (.texts r)
  | condition lookups around source =>
      (Expr.holdsFor lookups around source).bind fun b => .done (.condition b)

namespace Work

variable {α : Type}

/-- How a resolution goes on after a fetch. -/
def goOn (base : Option Nat) (scope : Nat) (next : Option Value → Resolution α) :
    Except StoreFault (Option Nat) → Work α
  | .ok (some place) =>
      .look fun s => resolve base scope (next (some (s.outer.shelf.get place)))
  | _ => resolve base scope (next none)

theorem resolve_fetch (base : Option Nat) (scope : Nat) (entity id : String)
    (next : Option Value → Resolution α) :
    resolve base scope (.fetch entity id next) =
      .fetch (some scope) entity id (goOn base scope next) := by
  simp only [resolve]
  congr 1

/-- What follows a fetch is what follows the record that its reply reports. -/
theorem run_goOn {sup : Supplier Nat StoreFault Session} {base : Option Nat} {scope number : Nat}
    {next : Option Value → Resolution α} {s : Shared Nat Session} {record : Option Value}
    {reply : Except StoreFault (Option Nat)} (reports : s.outer.shelf.Reports record reply) :
    (goOn base scope next reply).run sup number s =
      (resolve base scope (next record)).run sup number s := by
  rcases record with _ | v
  · rcases reply with f | _ | place
    · rfl
    · rfl
    · exact reports.elim
  · rcases reply with f | _ | place
    · exact reports.elim
    · exact reports.elim
    · have hget : s.outer.shelf.get place = v := Shelf.Holds.get reports
      simp only [goOn, Task.run, hget]

/-- A query about a record that is put on the shelf first. -/
def about (scope : Nat) (base : Value) (q : Query) : Work Answer :=
  Task.bind (Task.update (·.shelve base)) fun place => resolve (some place) scope q.resolution

end Work

/-! ## Coherence -/

/-- The records of the entries are those of the store. -/
structure Coherent (store : FixedStore) (s : Shared Nat Session) : Prop where
  serves : store.Serves s.outer
  ready : ∀ e i record, s.cache.get? (Record.key e i) = some (.ready record) →
    s.outer.shelf.Reports (store.record? e i) (.ok record)

/-- A coherent state after another, with all that was handed out before. -/
structure Onward (store : FixedStore) (s t : Shared Nat Session) : Prop where
  coherent : Coherent store t
  within : s.outer.shelf.Within t.outer.shelf

namespace Coherent

variable {store : FixedStore} {s t : Shared Nat Session}

theorem onward (h : Coherent store s) : Onward store s s :=
  ⟨h, .refl _⟩

/-- Scopes and waits do not matter, and the session may go on. -/
theorem follow (h : Coherent store s) {outer : Session}
    (follows : Follows store.Serves s.outer outer) (scopes : Scopes) (waits : Nat) :
    Onward store s { s with outer, scopes, waits } :=
  ⟨⟨follows.serves, fun e i record hget => (h.ready e i record hget).within follows.within⟩,
    follows.within⟩

/-- Entries may be lost. -/
theorem lose (h : Coherent store s) {cache : Cache Nat} (scopes : Scopes)
    (lost : ∀ key record, cache.get? key = some (.ready record) →
      s.cache.get? key = some (.ready record)) : Onward store s { s with cache, scopes } :=
  ⟨⟨h.serves, fun e i record hget => h.ready e i record (lost _ _ hget)⟩, .refl _⟩

/-- A mark is no record. -/
theorem claim (h : Coherent store s) (key : String) :
    Onward store s { s with cache := (s.cache.claim key).1 } := by
  refine h.lose s.scopes fun k record hget => ?_
  rw [Cache.get?_claim] at hget
  split at hget
  · cases hget
  · exact hget

theorem abandon (h : Coherent store s) (key : String) (mark : Nat) :
    Onward store s { s with cache := s.cache.abandon key mark } := by
  refine h.lose s.scopes fun k record hget => ?_
  rw [Cache.get?_abandon] at hget
  split at hget
  · cases hget
  · exact hget

theorem invalidate (h : Coherent store s) (keys : List String) (scopes : Scopes) :
    Onward store s { s with cache := (s.cache.invalidate keys).1, scopes } := by
  refine h.lose scopes fun k record hget => ?_
  rw [Cache.get?_invalidate] at hget
  split at hget
  · cases hget
  · exact hget

theorem clear (h : Coherent store s) : Onward store s { s with cache := s.cache.clear } := by
  refine h.lose s.scopes fun k record hget => ?_
  rw [Cache.get?_clear] at hget
  cases hget

/-- A load ends with the record of the store. -/
theorem finish (h : Coherent store s) (f : Fetch) (mark : Nat)
    {reply : Except StoreFault (Option Nat)}
    (reports : s.outer.shelf.Reports (store.record? f.entity f.id) reply) :
    Onward store s (f.finish mark reply s) := by
  rcases reply with fault | record
  · exact h.abandon f.key mark
  · refine ⟨⟨h.serves, fun e i record' hget => ?_⟩, .refl _⟩
    simp only [Fetch.finish, Cache.get?_settle] at hget
    split at hget
    next hkey =>
      cases hget
      have same : store.record? e i = store.record? f.entity f.id := store.same_key hkey.1
      rw [same]
      exact reports
    next => exact h.ready e i record' hget

end Coherent

theorem Onward.trans {store : FixedStore} {s t u : Shared Nat Session} (h : Onward store s t)
    (h' : Onward store t u) : Onward store s u :=
  ⟨h'.coherent, h.within.trans h'.within⟩

/-! ## A fetch -/

/-- A fetch that has its answer reports the record of the store; one that waits does no harm. -/
def Serviced (store : FixedStore) (f : Fetch) (s : Shared Nat Session) :
    Shared Nat Session × Fetch.Turn Nat StoreFault → Prop
  | (t, .answered reply) =>
      Onward store s t ∧ t.outer.shelf.Reports (store.record? f.entity f.id) reply
  | (t, .waiting _) => Onward store s t

section Fetching

variable (store : FixedStore) (f : Fetch)

variable {store f} in
theorem Serviced.of_onward {s t : Shared Nat Session}
    {r : Shared Nat Session × Fetch.Turn Nat StoreFault} (h : Onward store s t)
    (served : Serviced store f t r) : Serviced store f s r := by
  obtain ⟨u, reply | phase⟩ := r
  · exact ⟨h.trans served.1, served.2⟩
  · exact h.trans served

/-- Every turn of a fetch is such. -/
theorem serviced_of_comes {left : Nat} {s : Shared Nat Session}
    {r : Shared Nat Session × Fetch.Turn Nat StoreFault} (h : Coherent store s)
    (comes : Fetch.Comes store.supplier f left s r) : Serviced store f s r := by
  induction comes with
  | @hit left s place hplace =>
      exact ⟨h.onward, h.ready f.entity f.id _ (Cache.record?_eq_some_iff.mp hplace)⟩
  | @passed left wait delay s outer r hpause _ ih =>
      have follows := store.pause_follows f.task wait delay h.serves
      rw [hpause] at follows
      have passed := h.follow follows s.scopes s.waits
      exact .of_onward passed (ih passed.coherent)
  | @paused left attempt wait delay s outer hpause =>
      have follows := store.pause_follows f.task wait delay h.serves
      rw [hpause] at follows
      exact h.follow follows s.scopes (s.waits + 1)
  | @replied left wait s outer reply hask =>
      have hask : store.supplier.ask f.task wait (.record f.entity f.id) s.outer =
        (outer, some reply) := hask
      have follows := store.ask_follows f.task wait f.entity f.id h.serves
      have tells := store.ask_tells f.task wait f.entity f.id reply h.serves (by rw [hask])
      rw [hask] at follows tells
      have claimed := h.claim f.key
      have asked := claimed.trans (claimed.coherent.follow follows s.scopes s.waits)
      have finished := asked.coherent.finish f s.cache.nextMark tells.reports
      exact ⟨asked.trans finished, tells.reports.within finished.within⟩
  | @asked left wait s outer hask =>
      have hask : store.supplier.ask f.task wait (.record f.entity f.id) s.outer =
        (outer, none) := hask
      have follows := store.ask_follows f.task wait f.entity f.id h.serves
      rw [hask] at follows
      have claimed := h.claim f.key
      exact claimed.trans (claimed.coherent.follow follows s.scopes (s.waits + 1))

theorem proceed_serviced (attempt left : Nat) {s : Shared Nat Session} (h : Coherent store s) :
    Serviced store f s (f.proceed store.supplier attempt left s) :=
  serviced_of_comes store f h (Fetch.proceed_comes store.supplier f attempt left s)

theorem start_serviced {s : Shared Nat Session} (h : Coherent store s) (scope : Option Nat) :
    Serviced store f s (f.start store.supplier (s.touch scope f.key)) := by
  have touched : Onward store s (s.touch scope f.key) := by
    cases scope with
    | none => exact h.onward
    | some n => exact h.follow ⟨h.serves, .refl _⟩ _ s.waits
  exact .of_onward touched (proceed_serviced store f 0 _ touched.coherent)

end Fetching

/-! ## A call -/

section Calling

variable {α : Type} (store : FixedStore)

/-- A call that waits in a fetch goes on to its result with the record of the store. -/
def Awaits (base : Value) (a : α) (shelf : Shelf) (w : Wait Nat StoreFault Session α) : Prop :=
  ∃ f phase place scope next, w = .fetching f phase (Work.goOn (some place) scope next) ∧
    shelf.Holds place base ∧
    (next (store.record? f.entity f.id)).direct base store.record? = a

/-- A call ends with its result, or waits on for it. -/
def Resolves (base : Value) (a : α) (s : Shared Nat Session) :
    Shared Nat Session × Progress Nat StoreFault Session α → Prop
  | (t, .finished b) => Onward store s t ∧ b = a
  | (t, .parked w) => Onward store s t ∧ Awaits store base a t.outer.shelf w

variable {store} {base : Value} {a : α} {s t : Shared Nat Session}

theorem Awaits.within {shelf shelf' : Shelf} {w : Wait Nat StoreFault Session α}
    (h : Awaits store base a shelf w) (hw : shelf.Within shelf') :
    Awaits store base a shelf' w := by
  obtain ⟨f, phase, place, scope, next, hwait, hplace, hnext⟩ := h
  exact ⟨f, phase, place, scope, next, hwait, hplace.within hw, hnext⟩

theorem Resolves.of_onward {r : Shared Nat Session × Progress Nat StoreFault Session α}
    (h : Onward store s t) (resolves : Resolves store base a t r) : Resolves store base a s r := by
  obtain ⟨u, b | w⟩ := r
  · exact ⟨h.trans resolves.1, resolves.2⟩
  · exact ⟨h.trans resolves.1, resolves.2⟩

/-- A resolution that runs over the cache comes to what it comes to without. -/
theorem run_resolves {place scope number : Nat} (r : Resolution α) {s : Shared Nat Session}
    (h : Coherent store s) (hplace : s.outer.shelf.Holds place base) :
    Resolves store base (r.direct base store.record?) s
      ((Work.resolve (some place) scope r).run store.supplier number s) := by
  induction r generalizing s with
  | done b => exact ⟨h.onward, rfl⟩
  | look next ih =>
      have hbase : s.outer.shelf.get? (some place) = base := hplace.get
      simp only [Work.resolve, Task.run, hbase]
      exact ih base h hplace
  | fetch entity id next ih =>
      rw [Work.resolve_fetch, Task.run]
      have serviced := start_serviced store ⟨number, entity, id⟩ h (some scope)
      rcases hstart : Fetch.start store.supplier ⟨number, entity, id⟩
        (s.touch (some scope) (Fetch.key ⟨number, entity, id⟩)) with ⟨t, reply | phase⟩
      · rw [hstart] at serviced
        obtain ⟨onward, reports⟩ := serviced
        simp only
        rw [Work.run_goOn reports]
        exact .of_onward onward (ih _ onward.coherent (hplace.within onward.within))
      · rw [hstart] at serviced
        exact ⟨serviced, _, phase, place, scope, next, rfl, hplace.within serviced.within, rfl⟩

/-- A call that goes on comes to its result. -/
theorem resume_resolves {p : Parked Nat StoreFault Session α} (h : Coherent store s)
    (awaits : Awaits store base a s.outer.shelf p.what) :
    Resolves store base a s (Machine.resume store.supplier store.reply p s) := by
  obtain ⟨f, phase, place, scope, next, hwait, hplace, rfl⟩ := awaits
  have go : ∀ {t : Shared Nat Session} {reply : Except StoreFault (Option Nat)},
      Onward store s t → t.outer.shelf.Reports (store.record? f.entity f.id) reply →
      Resolves store base ((next (store.record? f.entity f.id)).direct base store.record?) s
        ((Work.goOn (some place) scope next reply).run store.supplier p.task t) := by
    intro t reply onward reports
    rw [Work.run_goOn reports]
    exact .of_onward onward (run_resolves _ onward.coherent (hplace.within onward.within))
  simp only [Machine.resume, hwait]
  cases phase with
  | loading mark =>
      have replied := h.follow (store.reply_follows f.entity f.id h.serves) s.scopes s.waits
      have reports := (store.reply_tells f.entity f.id h.serves).reports
      have finished := replied.coherent.finish f mark reports
      exact go (replied.trans finished) (reports.within finished.within)
  | pausing attempt left =>
      have serviced := proceed_serviced store f attempt left h
      rcases hproceed : f.proceed store.supplier attempt left s with ⟨t, reply | phase⟩
      · rw [hproceed] at serviced
        simp only [hproceed]
        exact go serviced.1 serviced.2
      · rw [hproceed] at serviced
        simp only [hproceed]
        exact ⟨serviced, f, phase, place, scope, next, rfl, hplace.within serviced.within, rfl⟩

theorem about_resolves {q : Query} {scope number : Nat} (h : Coherent store s) :
    Resolves store base (q.resolution.direct base store.record?) s
      ((Work.about scope base q).run store.supplier number s) := by
  have follows : Follows store.Serves s.outer (s.outer.shelve base).1 :=
    ⟨store.serves_shelve base h.serves, Shelf.within_add s.outer.shelf base⟩
  have shelved := h.follow follows s.scopes s.waits
  exact .of_onward shelved
    (run_resolves q.resolution shelved.coherent (Shelf.holds_add s.outer.shelf base))

end Calling

/-! ## Calls side by side -/

/-- What happens next.  A call has the number of its act. -/
inductive Traffic.Act where
  | call (scope : Nat) (base : Value) (q : Query)
  /-- The wait of a call is over. -/
  | release (wait : Nat)
  | invalidate (keys : List String)
  | clear
  /-- The keys of a scope are invalidated and forgotten. -/
  | leave (scope : Nat)
  | cancel (call : Nat)

/-- Calls that wait, and what others have returned. -/
structure Traffic where
  machine : Machine Nat StoreFault Session Answer
  returned : List (Nat × Answer) := []

namespace Traffic

/-- After a call has run on. -/
def turned (t : Traffic)
    (r : Machine Nat StoreFault Session Answer × Option (Nat × Answer)) : Traffic :=
  ⟨r.1, t.returned ++ r.2.toList⟩

/-- After a move of the cache. -/
def moved (t : Traffic) (m : Move Nat) : Traffic :=
  { t with machine := { t.machine with shared := (m.apply t.machine.shared).1 } }

/-- After the `n`-th act. -/
def step (store : FixedStore) (n : Nat) (t : Traffic) : Act → Traffic
  | .call scope base q =>
      t.turned (t.machine.start store.supplier n (Work.about scope base q))
  | .release wait => t.turned (t.machine.release store.supplier store.reply wait)
  | .invalidate keys => t.moved (.invalidate keys)
  | .clear => t.moved .clear
  | .leave scope => t.moved (.leave scope)
  | .cancel call => { t with machine := (t.machine.cancel call).1 }

/-- After acts, of which the first has the number `n`. -/
def after (store : FixedStore) (n : Nat) (t : Traffic) : List Act → Traffic
  | [] => t
  | act :: acts => after store (n + 1) (step store n t act) acts

/-- What acts make of a session with an empty cache. -/
def run (store : FixedStore) (session : Session) (acts : List Act) : Traffic :=
  after store 0 ⟨{ shared := { outer := session } }, []⟩ acts

/-- A call of the schedule returns what it returns by itself, from the store itself. -/
def Due (store : FixedStore) (acts : List Act) (n : Nat) (base : Value) (a : Answer) : Prop :=
  ∃ scope q, acts[n]? = some (.call scope base q) ∧ a = q.resolution.direct base store.record?

/-- All who wait and all who have returned come to what is due. -/
structure Sound (store : FixedStore) (acts : List Act) (t : Traffic) : Prop where
  coherent : Coherent store t.machine.shared
  waiting : ∀ p ∈ t.machine.parked, ∃ base a, Due store acts p.task base a ∧
    Awaits store base a t.machine.shared.outer.shelf p.what
  returned : ∀ n a, (n, a) ∈ t.returned → ∃ base, Due store acts n base a

variable {store : FixedStore} {acts : List Act} {t : Traffic}

theorem Sound.initial {session : Session} (serves : store.Serves session) :
    Sound store acts ⟨{ shared := { outer := session } }, []⟩ where
  coherent := ⟨serves, fun _ _ _ h => nomatch h⟩
  waiting := fun _ h => nomatch h
  returned := fun _ _ h => nomatch h

/-- The shared state may go on by itself. -/
theorem Sound.onward (h : Sound store acts t) {shared : Shared Nat Session}
    (onward : Onward store t.machine.shared shared)
    {parked : List (Parked Nat StoreFault Session Answer)}
    (subset : ∀ p ∈ parked, p ∈ t.machine.parked) :
    Sound store acts ⟨⟨shared, parked⟩, t.returned⟩ where
  coherent := onward.coherent
  waiting := fun p hp => by
    obtain ⟨base, a, due, awaits⟩ := h.waiting p (subset p hp)
    exact ⟨base, a, due, awaits.within onward.within⟩
  returned := h.returned

/-- A call runs on, while the others in `parked` wait. -/
theorem Sound.record (h : Sound store acts t) {n : Nat} {base : Value} {a : Answer}
    (due : Due store acts n base a) {r : Shared Nat Session × Progress Nat StoreFault Session Answer}
    (resolves : Resolves store base a t.machine.shared r)
    {parked : List (Parked Nat StoreFault Session Answer)}
    (subset : ∀ p ∈ parked, p ∈ t.machine.parked) :
    Sound store acts (t.turned (Machine.record ⟨t.machine.shared, parked⟩ n r)) := by
  obtain ⟨s, b | w⟩ := r
  · obtain ⟨onward, rfl⟩ := resolves
    have others := h.onward onward subset
    refine ⟨others.coherent, others.waiting, fun k c hmem => ?_⟩
    rcases List.mem_append.mp hmem with hmem | hmem
    · exact h.returned k c hmem
    · cases List.mem_singleton.mp hmem
      exact ⟨base, due⟩
  · obtain ⟨onward, awaits⟩ := resolves
    have others := h.onward onward subset
    refine ⟨others.coherent, fun p hp => ?_, fun k c hmem => ?_⟩
    · rcases List.mem_append.mp hp with hp | hp
      · exact others.waiting p hp
      · rw [List.mem_singleton.mp hp]
        exact ⟨base, a, due, awaits⟩
    · exact h.returned k c (by simpa [turned, Machine.record] using hmem)

theorem Sound.step (h : Sound store acts t) {n : Nat} {act : Act} (hact : acts[n]? = some act) :
    Sound store acts (step store n t act) := by
  cases act with
  | call scope base q =>
      exact h.record ⟨scope, q, hact, rfl⟩ (about_resolves h.coherent) fun _ hp => hp
  | release wait =>
      simp only [Traffic.step, Machine.release]
      split
      · exact ⟨h.coherent, h.waiting, fun k c hmem => h.returned k c (by simpa [turned] using hmem)⟩
      next p hfind =>
        obtain ⟨base, a, due, awaits⟩ := h.waiting p (List.mem_of_find?_eq_some hfind)
        exact h.record due (resume_resolves h.coherent awaits) fun _ hq => List.mem_of_mem_filter hq
  | invalidate keys =>
      exact h.onward (h.coherent.invalidate keys _) fun _ hp => hp
  | clear =>
      exact h.onward h.coherent.clear fun _ hp => hp
  | leave scope =>
      exact h.onward (h.coherent.invalidate _ _) fun _ hp => hp
  | cancel call =>
      simp only [Traffic.step, Machine.cancel]
      split
      · exact h
      next p hfind =>
        obtain ⟨base, a, -, f, phase, place, scope, next, hwait, -⟩ :=
          h.waiting p (List.mem_of_find?_eq_some hfind)
        have onward : Onward store t.machine.shared (Machine.giveUp p t.machine.shared) := by
          rw [Machine.giveUp, hwait]
          cases phase with
          | pausing attempt left => exact h.coherent.onward
          | loading mark => exact h.coherent.abandon f.key mark
        exact h.onward onward fun _ hq => List.mem_of_mem_filter hq

theorem Sound.after {n : Nat} (rest : List Act) (h : Sound store acts t)
    (hrest : ∀ k, rest[k]? = acts[n + k]?) : Sound store acts (after store n t rest) := by
  induction rest generalizing n t with
  | nil => exact h
  | cons act rest ih =>
      refine ih (h.step (hrest 0).symm) fun k => ?_
      rw [← List.getElem?_cons_succ, hrest (k + 1), Nat.add_assoc, Nat.add_comm 1 k]

/-- **The cache does not change what a call returns.**  Whatever calls run side by side, through
whatever scopes, and whatever keys are invalidated meanwhile: what a call has returned is what its
query about its base record comes to when every hop reads the store itself. -/
theorem returned_direct (store : FixedStore) {session : Session} (serves : store.Serves session)
    (acts : List Act) {n : Nat} {a : Answer} (h : (n, a) ∈ (run store session acts).returned) :
    ∃ scope base q, acts[n]? = some (.call scope base q) ∧
      a = q.resolution.direct base store.record? := by
  have sound : Sound store acts (run store session acts) :=
    (Sound.initial serves).after acts fun k => by rw [Nat.zero_add]
  obtain ⟨base, scope, q, hact, ha⟩ := sound.returned n a h
  exact ⟨scope, base, q, hact, ha⟩

/-- A store of one account. -/
def accounts : FixedStore :=
  let answer (key : String) : Except StoreFault Value :=
    if key == "account:a1" then .ok (.map [("name", .text "Acme")])
    else .error (.broken "KeyError" (some key))
  .patient 1 (fun entity id => answer (Record.key entity id)) fun h => by rw [h]

/-- A record that looks an account up. -/
def contact : Value :=
  .map [(Lookup.idKey "owner", .text "a1"), (Lookup.entityKey "owner", .text "account")]

/-- Two calls need one account.  It is invalidated while the first loads it, so the second, which
has paused behind the first, loads it too. -/
def rush : List Act :=
  [.call 0 contact (.value "owner.name".toList), .call 1 contact (.value "owner.name".toList),
    .invalidate ["account:a1"], .release 2, .release 1, .release 3]

theorem rush_direct :
    ∃ a, (1, a) ∈ (run accounts {} rush).returned ∧ a = .value (.text "Acme") := by
  have returns : (run accounts {} rush).returned.any (·.1 == 1) = true := by decide +kernel
  obtain ⟨⟨n, a⟩, hmem, hn⟩ := List.any_eq_true.mp returns
  have hn : n = 1 := by simpa using hn
  subst hn
  obtain ⟨scope, base, q, hact, ha⟩ := returned_direct accounts trivial rush hmem
  cases hact
  exact ⟨a, hmem, ha⟩

end Traffic

end Toolbar
