/-
# `Toolbar.Proofs.Session.Alone` — work that nobody interrupts

Work may have to wait, but as long as nothing else happens before it is done, it does not matter
where: it comes to the same end as if every answer had been there at once.  The store has one answer
for each entity and id during the work, whatever it answered before.  So what the work fetches is a
matter of the records that the cache had at first, its *stock*, and of the store.

    Source    a store that answers by its state, and how the machine sees it
    Settled   nobody loads, and the records of the cache lie on the shelf
    Aside     what work for one pipeline leaves alone
    Passes    besides, what it leaves in the cache it has touched
    Reads     besides, it leaves its pipeline alone
    Alone     work that is woken whenever it waits, and nothing else, ends
    Served    the store is asked for what is not in stock

A resolution that runs alone comes to what it comes to under the loader `Loader.memo`, which keeps
the records that it was given once.
-/
import Mathlib.Logic.Function.Basic
import Toolbar.Proofs.Record.Loader
import Toolbar.Proofs.Session.Ending

namespace Toolbar

/-! ## A load that nobody disturbs -/

namespace Cache

variable {ρ : Type} (c : Cache ρ) (key k : String)

theorem get?_settle_claim (record : Option ρ) :
    ((c.claim key).1.settle key c.nextMark record).get? k =
      if k = key then some (.ready record) else c.get? k := by
  have hholds : (c.claim key).1.holds key c.nextMark = true := by
    rw [holds_iff, get?_claim, if_pos rfl]
  rw [get?_settle, get?_claim]
  by_cases h : k = key <;> simp [h, hholds]

theorem get?_abandon_claim :
    ((c.claim key).1.abandon key c.nextMark).get? k = if k = key then none else c.get? k := by
  have hholds : (c.claim key).1.holds key c.nextMark = true := by
    rw [holds_iff, get?_claim, if_pos rfl]
  rw [get?_abandon, get?_claim]
  by_cases h : k = key <;> simp [h, hholds]

end Cache

/-- A fetch does not pause where nobody loads. -/
theorem Fetch.start_of_free {ρ φ σ : Type} (sup : Supplier ρ φ σ) (f : Fetch) {s : Shared ρ σ}
    (free : ∀ mark, s.cache.get? f.key ≠ some (.loading mark)) :
    f.start sup s =
      match s.cache.record? f.key with
      | some record => (s, .answered (.ok (some record)))
      | none => f.load sup s := by
  have hloading : s.cache.isLoading f.key = false := by
    refine Bool.eq_false_iff.mpr fun h => ?_
    obtain ⟨mark, hmark⟩ := Cache.isLoading_iff.mp h
    exact free mark hmark
  unfold start proceed
  cases s.cache.record? f.key with
  | some record => rfl
  | none => cases hattempts : sup.attempts <;> simp [pauseOrLoad, hloading]

/-! ## Sources -/

/-- A session after another: pipelines and listeners are as they were, and the store answers as it
did. -/
structure Session.Kept (read : Store → String → String → Except StoreFault Value) (s t : Session) :
    Prop where
  within : s.shelf.Within t.shelf
  read : read t.store = read s.store
  pipelines : t.pipelines = s.pipelines
  bus : t.bus = s.bus

theorem Session.Kept.trans {read : Store → String → String → Except StoreFault Value}
    {s t u : Session} (h : Session.Kept read s t) (h' : Session.Kept read t u) :
    Session.Kept read s u :=
  ⟨h.within.trans h'.within, h'.read.trans h.read, h'.pipelines.trans h.pipelines,
    h'.bus.trans h.bus⟩

/-- A store that has one answer for each entity and id at a time. -/
structure Source where
  read : Store → String → String → Except StoreFault Value
  supplier : Supplier Nat StoreFault Session
  /-- The answer to a request that was held back. -/
  reply : Request → Session → Session × Except StoreFault (Option Nat)
  pause_kept : ∀ n wait delay s, Session.Kept read s (supplier.pause n wait delay s).1
  ask_kept : ∀ n wait e i s, Session.Kept read s (supplier.ask n wait (.record e i) s).1
  ask_tells : ∀ n wait e i s r, (supplier.ask n wait (.record e i) s).2 = some r →
    (supplier.ask n wait (.record e i) s).1.shelf.Tells (read s.store e i) r
  reply_kept : ∀ e i s, Session.Kept read s (reply (.record e i) s).1
  reply_tells : ∀ e i s,
    (reply (.record e i) s).1.shelf.Tells (read s.store e i) (reply (.record e i) s).2

namespace Source

theorem hand_bus (s : Session) (answer : Except StoreFault Value) :
    (s.hand answer).1.bus = s.bus := by
  rcases answer with f | v
  · rfl
  · cases hnull : v.isNull <;> simp only [Session.hand, hnull] <;> rfl

theorem serve_kept (e i : String) (s : Session) :
    Session.Kept (fun store e i => store.answer (.record e i)) s (s.serve (.record e i)).1 := by
  rw [Session.serve_eq_hand]
  refine ⟨Session.hand_within { s with store := (s.store.serve _).1 } _, ?_,
    Supply.hand_pipelines _ _, hand_bus _ _⟩
  rw [Session.hand_store]
  rfl

/-- The store of a session, as the session serves it. -/
def ofSession (attempts : Nat) (delay : Number) : Source where
  read := fun store e i => store.answer (.record e i)
  supplier := Session.supplier attempts delay
  reply := Session.serve
  pause_kept := fun _ _ _ _ => ⟨.refl _, rfl, rfl, rfl⟩
  ask_kept := fun _ _ e i s => by
    simp only [Session.supplier]
    split
    · exact ⟨.refl _, rfl, rfl, rfl⟩
    · have served := serve_kept e i (s.write (.asked (.record e i)))
      exact ⟨served.within, served.read, served.pipelines, served.bus⟩
  ask_tells := fun _ _ e i s r hr => by
    simp only [Session.supplier] at hr ⊢
    split at hr
    · cases hr
    next hmanual =>
      rw [if_neg hmanual]
      cases hr
      exact Session.serve_tells (.record e i) rfl
  reply_kept := serve_kept
  reply_tells := fun e i s => Session.serve_tells (.record e i) rfl

/-- A session after another, in which the store was asked for a record and has replied. -/
inductive Asks (source : Source) (entity id : String) (s : Session) : Session → Prop
  | answered {n wait : Nat} {t : Session} {reply : Except StoreFault (Option Nat)} :
      source.supplier.ask n wait (.record entity id) s = (t, some reply) → Asks source entity id s t
  | held {n wait : Nat} {t : Session} :
      source.supplier.ask n wait (.record entity id) s = (t, none) →
      Asks source entity id s (source.reply (.record entity id) t).1

/-- A source as a supply: at some time its store may answer anything. -/
def supply (source : Source) : Supply where
  May := fun _ _ _ => True
  same_key := fun _ _ _ => trivial
  supplier := source.supplier
  reply := source.reply
  Serves := fun _ => True
  serves_with := fun _ _ _ => trivial
  pause_later := fun n wait delay _ =>
    have kept := source.pause_kept n wait delay _
    ⟨⟨trivial, kept.within⟩, kept.pipelines⟩
  ask_later := fun n wait e i _ =>
    have kept := source.ask_kept n wait e i _
    ⟨⟨trivial, kept.within⟩, kept.pipelines⟩
  ask_tells := fun n wait e i r _ hr => ⟨_, trivial, source.ask_tells n wait e i _ r hr⟩
  reply_later := fun e i _ =>
    have kept := source.reply_kept e i _
    ⟨⟨trivial, kept.within⟩, kept.pipelines⟩
  reply_tells := fun e i _ => ⟨_, trivial, source.reply_tells e i _⟩

end Source

/-! ## The stock of a cache -/

/-- Records by key. -/
abbrev Stock := String → Option Value

namespace Stock

variable (stock : Stock) (read : String → String → Except StoreFault Value) (entity id : String)

/-- The answer about a record: it is in stock, or the store is asked. -/
def answer : Except StoreFault Value :=
  match stock (Record.key entity id) with
  | some v => .ok v
  | none => read entity id

/-- The stock after that. -/
def after : Stock :=
  Function.update stock (Record.key entity id) (recordOf (stock.answer read entity id))

theorem answer_of_none (h : stock (Record.key entity id) = none) :
    stock.answer read entity id = read entity id := by
  rw [answer, h]

end Stock

/-- Answers from the stock, and else by the store. -/
def Loader.memo (read : String → String → Except StoreFault Value) (base : Value) :
    Loader Stock where
  base := fun _ => base
  fetch := fun entity id stock =>
    (recordOf (stock.answer read entity id), stock.after read entity id)

/-- The records of the cache. -/
def Shared.stock (s : Shared Nat Session) : Stock :=
  fun key => (s.cache.record? key).map s.outer.shelf.get

/-- Nobody loads, and the records of the cache lie on the shelf. -/
structure Settled (s : Shared Nat Session) : Prop where
  free : ∀ key mark, s.cache.get? key ≠ some (.loading mark)
  held : s.cache.AllReady fun _ record => ∀ place, record = some place →
    ∃ v, v.isNull = false ∧ s.outer.shelf.Holds place v

namespace Settled

variable {source : Source} {s t : Shared Nat Session}

theorem of_empty (h : ∀ key, s.cache.get? key = none) : Settled s where
  free := fun key mark hmark => by
    rw [h key] at hmark
    cases hmark
  held := fun key record hrecord => by
    rw [h key] at hrecord
    cases hrecord

theorem coherent (h : Settled s) : source.supply.Coherent s where
  serves := trivial
  ready := fun key record hget e i place _ hrecord => by
    obtain ⟨v, hnull, hplace⟩ := h.held key record hget place hrecord
    exact ⟨.ok v, trivial, hnull, hplace⟩

theorem stock_of_empty (h : ∀ key, s.cache.get? key = none) : s.stock = fun _ => none := by
  funext key
  simp only [Shared.stock, Cache.record?, h key]
  rfl

theorem record?_eq (h : Settled s) {key : String} {place : Nat}
    (hplace : s.cache.record? key = some place) :
    ∃ v, v.isNull = false ∧ s.outer.shelf.Holds place v ∧ s.stock key = some v := by
  obtain ⟨v, hnull, hv⟩ := h.held key _ (Cache.record?_eq_some_iff.mp hplace) place rfl
  refine ⟨v, hnull, hv, ?_⟩
  rw [Shared.stock, hplace, Option.map_some, hv.get]

/-- All but the cache may change, if the shelf does not lose a record. -/
theorem elsewhere (h : Settled s) (hcache : t.cache = s.cache)
    (hwithin : s.outer.shelf.Within t.outer.shelf) : Settled t where
  free := by
    rw [hcache]
    exact h.free
  held := by
    rw [hcache]
    intro key record hget place hrecord
    obtain ⟨v, hnull, hplace⟩ := h.held key record hget place hrecord
    exact ⟨v, hnull, hplace.within hwithin⟩

theorem stock_eq (h : Settled s) (hcache : t.cache = s.cache)
    (hwithin : s.outer.shelf.Within t.outer.shelf) : t.stock = s.stock := by
  funext key
  simp only [Shared.stock, hcache]
  cases hplace : s.cache.record? key with
  | none => rfl
  | some place =>
      obtain ⟨v, -, hv, -⟩ := h.record?_eq hplace
      rw [Option.map_some, Option.map_some, hv.get, (hv.within hwithin).get]

end Settled

/-! ## What work for one pipeline leaves alone -/

/-- A state after another: the store has changed, and what it has handed out is still there. -/
structure Between (s t : Shared Nat Session) : Prop where
  cache : t.cache = s.cache
  scopes : t.scopes = s.scopes
  pipelines : t.outer.pipelines = s.outer.pipelines
  bus : t.outer.bus = s.outer.bus
  within : s.outer.shelf.Within t.outer.shelf

/-- A state after another: work was done for one pipeline, and all else is as it was, but for
records that were loaded. -/
structure Aside (source : Source) (n : Nat) (s t : Shared Nat Session) : Prop where
  settled : Settled t
  within : s.outer.shelf.Within t.outer.shelf
  read : source.read t.outer.store = source.read s.outer.store
  others : ∀ m, m ≠ n → t.outer.pipelines[m]? = s.outer.pipelines[m]?
  scopes : ∀ m, m ≠ n → t.scopes.keys m = s.scopes.keys m

/-- Besides, whatever has come into the cache has been touched, and no record is lost. -/
structure Passes (source : Source) (n : Nat) (s t : Shared Nat Session) : Prop
    extends Aside source n s t where
  bus : t.outer.bus = s.outer.bus
  touched : ∀ key ∈ s.scopes.keys n, key ∈ t.scopes.keys n
  grows : ∀ key v, s.stock key = some v → t.stock key = some v
  cached : ∀ key, t.cache.get? key ≠ none →
    s.cache.get? key ≠ none ∨ key ∈ t.scopes.keys n

/-- Besides, no pipeline has changed. -/
structure Reads (source : Source) (n : Nat) (s t : Shared Nat Session) : Prop
    extends Passes source n s t where
  pipelines : t.outer.pipelines = s.outer.pipelines

variable {source : Source} {n : Nat} {s t u : Shared Nat Session}

theorem Aside.trans (h : Aside source n s t) (h' : Aside source n t u) : Aside source n s u where
  settled := h'.settled
  within := h.within.trans h'.within
  read := h'.read.trans h.read
  others := fun m hm => (h'.others m hm).trans (h.others m hm)
  scopes := fun m hm => (h'.scopes m hm).trans (h.scopes m hm)

namespace Passes

theorem trans (h : Passes source n s t) (h' : Passes source n t u) : Passes source n s u where
  toAside := h.toAside.trans h'.toAside
  bus := h'.bus.trans h.bus
  touched := fun key hkey => h'.touched key (h.touched key hkey)
  grows := fun key v hv => h'.grows key v (h.grows key v hv)
  cached := fun key hkey => by
    rcases h'.cached key hkey with hcached | htouched
    · exact (h.cached key hcached).imp_right (h'.touched key)
    · exact .inr htouched

theorem refl (h : Settled s) : Passes source n s s where
  settled := h
  within := .refl _
  read := rfl
  others := fun _ _ => rfl
  scopes := fun _ _ => rfl
  bus := rfl
  touched := fun _ hkey => hkey
  grows := fun _ _ hv => hv
  cached := fun _ hkey => .inl hkey

/-- The session goes on, with its store and its listeners. -/
theorem outer (h : Settled s) (outer : Session) (within : s.outer.shelf.Within outer.shelf)
    (store : outer.store = s.outer.store) (bus : outer.bus = s.outer.bus)
    (others : ∀ m, m ≠ n → outer.pipelines[m]? = s.outer.pipelines[m]?) :
    Passes source n s { s with outer } where
  settled := h.elsewhere rfl within
  within := within
  read := congrArg source.read store
  others := others
  scopes := fun _ _ => rfl
  bus := bus
  touched := fun _ hkey => hkey
  grows := fun key v hv => by
    have hstock : Shared.stock { s with outer } = s.stock := h.stock_eq rfl within
    rw [hstock]
    exact hv
  cached := fun _ hkey => .inl hkey

theorem touch (h : Settled s) (key : String) : Passes source n s (s.touch (some n) key) where
  settled := h.elsewhere rfl (.refl _)
  within := .refl _
  read := rfl
  others := fun _ _ => rfl
  scopes := fun _ hm => Scopes.keys_touch_of_ne hm s.scopes key
  bus := rfl
  touched := fun k hk => (Scopes.mem_keys_touch s.scopes n key k).mpr (.inr hk)
  grows := fun _ _ hv => hv
  cached := fun _ hkey => .inl hkey

theorem shelve (h : Settled s) (v : Value) :
    Passes source n s { s with outer := (s.outer.shelve v).1 } :=
  .outer h _ (Shelf.within_add _ _) rfl rfl fun _ _ => rfl

theorem onPipeline (h : Settled s) (f : Pipeline → Pipeline) :
    Passes source n s { s with outer := s.outer.onPipeline n f } :=
  .outer h _ (.refl _) rfl rfl fun _ hm => List.getElem?_modify_ne f _ (Ne.symm hm)

end Passes

theorem Reads.trans (h : Reads source n s t) (h' : Reads source n t u) : Reads source n s u :=
  ⟨h.toPasses.trans h'.toPasses, h'.pipelines.trans h.pipelines⟩

theorem Reads.refl (h : Settled s) : Reads source n s s :=
  ⟨.refl h, rfl⟩

/-! ## Leaving a scope -/

/-- Every entry of the cache is among the keys of a scope. -/
def Covered (n : Nat) (s : Shared Nat Session) : Prop :=
  ∀ key, s.cache.get? key ≠ none → key ∈ s.scopes.keys n

theorem Passes.covered (h : Passes source n s t) (hs : Covered n s) : Covered n t :=
  fun key hkey => (h.cached key hkey).elim (fun hcached => h.touched key (hs key hcached)) id

section Leaving

/-- The state after a scope was left. -/
def Shared.left (n : Nat) (s : Shared Nat Session) : Shared Nat Session :=
  ((Move.leave n).apply s).1

theorem get?_left (n : Nat) (s : Shared Nat Session) (key : String) :
    (s.left n).cache.get? key = if key ∈ s.scopes.keys n then none else s.cache.get? key :=
  Cache.get?_invalidate key _ s.cache

theorem stock_left (n : Nat) (s : Shared Nat Session) (key : String) :
    (s.left n).stock key = if key ∈ s.scopes.keys n then none else s.stock key := by
  by_cases h : key ∈ s.scopes.keys n
  · simp only [Shared.stock, Cache.record?, get?_left, if_pos h]
    rfl
  · simp only [Shared.stock, Cache.record?, get?_left, if_neg h]
    rfl

theorem Settled.left (h : Settled s) : Settled (s.left n) where
  free := fun key mark hmark => by
    rw [get?_left] at hmark
    split at hmark
    · cases hmark
    · exact h.free key mark hmark
  held := h.held.invalidate _

theorem aside_left (h : Settled s) : Aside source n s (s.left n) where
  settled := h.left
  within := .refl _
  read := rfl
  others := fun _ _ => rfl
  scopes := fun m hm => (Scopes.keys_set s.scopes n m []).trans (if_neg hm)

/-- Of a cache that its scope covers nothing is left. -/
theorem Covered.left (h : Covered n s) (key : String) : (s.left n).cache.get? key = none := by
  rw [get?_left]
  split
  next => rfl
  next hno => exact Classical.byContradiction fun hkey => hno (h key hkey)

end Leaving

/-! ## Work that runs alone -/

/-- The result of work that is done. -/
def Progress.result? {ρ φ σ α : Type} : Progress ρ φ σ α → Option α
  | .finished a => some a
  | .parked _ => none

/-- Work that has ended at once has ended so. -/
theorem Supply.Ends.at_result {supply : Supply} {drift : Drift} {n number : Nat} {α : Type}
    {during : Shared Nat Session → Prop} {post : Shared Nat Session → α → Prop} {before : Shelf}
    {r : Shared Nat Session × Progress Nat StoreFault Session α} {a : α}
    (h : supply.Ends drift n number during post before r) (hr : r.2.result? = some a) :
    post r.1 a := by
  cases h with
  | finished _ h =>
      cases hr
      exact h
  | parked _ _ _ => cases hr

/-- Work ends in a state and with a result of which `post` holds, when it is woken whenever it
waits and nothing else happens. -/
inductive Source.Alone {α : Type} (source : Source) (number : Nat)
    (post : Shared Nat Session → α → Prop) :
    Shared Nat Session × Progress Nat StoreFault Session α → Prop
  | finished {s : Shared Nat Session} {a : α} : post s a →
      Alone source number post (s, .finished a)
  | parked {s : Shared Nat Session} {w : Wait Nat StoreFault Session α} :
      Alone source number post
        (Machine.resume source.supplier source.reply ⟨s.waits, number, w⟩ s) →
      Alone source number post (s, .parked w)

namespace Source.Alone

variable {α β : Type} {number : Nat} {post : Shared Nat Session → α → Prop}
  {mid : Shared Nat Session → β → Prop}

theorem mono {post' : Shared Nat Session → α → Prop}
    {r : Shared Nat Session × Progress Nat StoreFault Session α}
    (h : source.Alone number post r) (hpost : ∀ t a, post t a → post' t a) :
    source.Alone number post' r := by
  induction h with
  | finished h => exact .finished (hpost _ _ h)
  | parked _ ih => exact .parked ih

/-- There is an end. -/
theorem reaches {r : Shared Nat Session × Progress Nat StoreFault Session α}
    (h : source.Alone number post r) :
    ∃ t a, post t a ∧ source.Alone number (fun u b => u = t ∧ b = a) r := by
  induction h with
  | finished h => exact ⟨_, _, h, .finished ⟨rfl, rfl⟩⟩
  | parked _ ih =>
      obtain ⟨t, a, hpost, halone⟩ := ih
      exact ⟨t, a, hpost, .parked halone⟩

/-- There is one end. -/
theorem and {post' : Shared Nat Session → α → Prop}
    {r : Shared Nat Session × Progress Nat StoreFault Session α}
    (h : source.Alone number post r) (h' : source.Alone number post' r) :
    source.Alone number (fun t a => post t a ∧ post' t a) r := by
  induction h with
  | finished h =>
      cases h' with
      | finished h' => exact .finished ⟨h, h'⟩
  | parked _ ih =>
      cases h' with
      | parked h' => exact .parked (ih h')

/-- Work that does not have to wait. -/
theorem of_result {r : Shared Nat Session × Progress Nat StoreFault Session α} {a : α}
    (h : r.2.result? = some a) (hpost : post r.1 a) : source.Alone number post r := by
  obtain ⟨s, progress⟩ := r
  cases progress with
  | finished b =>
      cases h
      exact .finished hpost
  | parked w => cases h

theorem at_result {r : Shared Nat Session × Progress Nat StoreFault Session α} {a : α}
    (h : source.Alone number post r) (hr : r.2.result? = some a) : post r.1 a := by
  cases h with
  | finished h =>
      cases hr
      exact h
  | parked _ => cases hr

theorem andThen {f : β → Work α} {r : Shared Nat Session × Progress Nat StoreFault Session β}
    (h : source.Alone number mid r)
    (hf : ∀ t b, mid t b → source.Alone number post ((f b).run source.supplier number t)) :
    source.Alone number post (Progress.andThen source.supplier number f r) := by
  induction h with
  | finished h => exact hf _ _ h
  | parked _ ih =>
      refine .parked ?_
      rw [Machine.resume_bind]
      exact ih

theorem bind {w : Work β} {f : β → Work α}
    (h : source.Alone number mid (w.run source.supplier number s))
    (hf : ∀ t b, mid t b → source.Alone number post ((f b).run source.supplier number t)) :
    source.Alone number post ((w.bind f).run source.supplier number s) := by
  rw [Task.run_bind]
  exact h.andThen hf

end Source.Alone

/-! ## A fetch -/

/-- How a fetch for a pipeline goes on, and with which reply. -/
structure Replied (source : Source) (n : Nat) (entity id : String) (s t : Shared Nat Session)
    (reply : Except StoreFault (Option Nat)) : Prop extends Reads source n s t where
  tells : t.outer.shelf.Tells (s.stock.answer (source.read s.outer.store) entity id) reply
  stock : t.stock = s.stock.after (source.read s.outer.store) entity id
  has : Record.key entity id ∈ t.scopes.keys n

/-- The store is asked for a record that is not in stock, and for no other. -/
structure Served (source : Source) (entity id : String) (s t : Shared Nat Session) : Prop where
  hit : s.stock (Record.key entity id) ≠ none → t.outer = s.outer
  miss : s.stock (Record.key entity id) = none → source.Asks entity id s.outer t.outer

section Fetching

variable {f : Fetch}

theorem Replied.touch {reply : Except StoreFault (Option Nat)} {entity id key : String}
    (h : Settled s) (replied : Replied source n entity id (s.touch (some n) key) t reply) :
    Replied source n entity id s t reply where
  toReads := ⟨(Passes.touch h key).trans replied.toPasses, replied.pipelines⟩
  tells := replied.tells
  stock := replied.stock
  has := replied.has

/-- A record that is in stock later on, under the key of what was fetched, was the answer, unless
the answer was none. -/
theorem Replied.keeps {reply : Except StoreFault (Option Nat)} {entity id : String}
    (h : Replied source n entity id s t reply) (passes : Passes source n t u)
    (failed : ∀ f, s.stock.answer (source.read s.outer.store) entity id = .error f →
      u.stock = t.stock)
    {w : Value} (hw : u.stock (Record.key entity id) = some w) :
    s.stock.answer (source.read s.outer.store) entity id = .ok w ∨
      s.stock.answer (source.read s.outer.store) entity id = .ok .null := by
  have hrecord : t.stock (Record.key entity id) =
      recordOf (s.stock.answer (source.read s.outer.store) entity id) := by
    rw [h.stock]
    exact Function.update_self _ _ _
  cases hanswer : s.stock.answer (source.read s.outer.store) entity id with
  | error f =>
      rw [failed f hanswer, hrecord, hanswer] at hw
      cases hw
  | ok v =>
      rw [hanswer] at hrecord
      by_cases hnull : v = .null
      · exact .inr (congrArg Except.ok hnull)
      · have hsome : recordOf (.ok v) = some v := by
          cases v with
          | null => exact absurd rfl hnull
          | _ => rfl
        rw [passes.grows _ v (hrecord.trans hsome)] at hw
        exact .inl (congrArg Except.ok (Option.some.inj hw))

/-- A record that is in stock is the reply. -/
theorem replied_hit (h : Settled s) (touched : f.key ∈ s.scopes.keys n) {place : Nat}
    (hplace : s.cache.record? f.key = some place) :
    Replied source n f.entity f.id s s (.ok (some place)) := by
  obtain ⟨v, hnull, hv, hstock⟩ := h.record?_eq hplace
  have hanswer : s.stock.answer (source.read s.outer.store) f.entity f.id = .ok v := by
    have hstock : s.stock (Record.key f.entity f.id) = some v := hstock
    rw [Stock.answer, hstock]
  refine ⟨.refl h, ?_, ?_, touched⟩
  · rw [hanswer]
    exact ⟨hnull, hv⟩
  · rw [Stock.after, hanswer, recordOf, if_neg (by rw [hnull]; exact Bool.false_ne_true)]
    exact (Function.update_eq_self_iff.mpr hstock.symm).symm

/-- The entries after a load that nobody has disturbed. -/
theorem get?_finish (f : Fetch) (reply : Except StoreFault (Option Nat)) (s : Shared Nat Session)
    (outer : Session) (waits : Nat) (k : String) :
    (f.finish s.cache.nextMark reply
        { s with cache := (s.cache.claim f.key).1, outer, waits }).cache.get? k =
      if k = f.key then reply.toOption.map .ready else s.cache.get? k := by
  rcases reply with fault | record
  · exact Cache.get?_abandon_claim s.cache f.key k
  · exact Cache.get?_settle_claim s.cache f.key k record

section Loading

variable {reply : Except StoreFault (Option Nat)} {outer : Session}

theorem settled_finish (h : Settled s) (within : s.outer.shelf.Within outer.shelf)
    {answer : Except StoreFault Value} (tells : outer.shelf.Tells answer reply) (waits : Nat) :
    Settled (f.finish s.cache.nextMark reply
      { s with cache := (s.cache.claim f.key).1, outer, waits }) where
  free := fun key mark hmark => by
    rw [get?_finish] at hmark
    split at hmark
    · rcases reply with fault | record <;> cases hmark
    · exact h.free key mark hmark
  held := fun key record hrecord place hplace => by
    subst hplace
    rw [get?_finish] at hrecord
    split at hrecord
    · rcases reply with fault | record'
      · cases hrecord
      · cases hrecord
        rcases answer with fault | v
        · exact tells.elim
        · exact ⟨v, tells⟩
    · obtain ⟨v, hnull, hv⟩ := h.held key _ hrecord place rfl
      exact ⟨v, hnull, hv.within within⟩

theorem stock_finish (h : Settled s) (within : s.outer.shelf.Within outer.shelf)
    {record : Option Value} (reports : outer.shelf.Reports record reply) (waits : Nat) :
    (f.finish s.cache.nextMark reply
        { s with cache := (s.cache.claim f.key).1, outer, waits }).stock =
      Function.update s.stock f.key record := by
  funext key
  rw [Function.update_apply]
  by_cases hkey : key = f.key
  · simp only [Shared.stock, Cache.record?, get?_finish, if_pos hkey]
    rcases record with _ | v
    · rcases reply with fault | _ | place
      · rfl
      · rfl
      · exact reports.elim
    · rcases reply with fault | _ | place
      · exact reports.elim
      · exact reports.elim
      · exact congrArg some (Shelf.Holds.get reports)
  · have hstock : Shared.stock { s with outer } = s.stock := h.stock_eq rfl within
    rw [if_neg hkey, ← hstock]
    simp only [Shared.stock, Cache.record?, get?_finish, if_neg hkey]
    rfl

/-- A record that is not in stock is loaded. -/
theorem replied_load (h : Settled s) (touched : f.key ∈ s.scopes.keys n)
    (missing : s.cache.record? f.key = none) (kept : Session.Kept source.read s.outer outer)
    (tells : outer.shelf.Tells (source.read s.outer.store f.entity f.id) reply) (waits : Nat) :
    Replied source n f.entity f.id s (f.finish s.cache.nextMark reply
      { s with cache := (s.cache.claim f.key).1, outer, waits }) reply := by
  have hstock : s.stock f.key = none := by rw [Shared.stock, missing, Option.map_none]
  have hanswer := Stock.answer_of_none s.stock (source.read s.outer.store) f.entity f.id hstock
  have after := stock_finish (f := f) h kept.within tells.reports waits
  refine
    { settled := settled_finish h kept.within tells waits
      within := kept.within
      read := kept.read
      others := fun m _ => congrArg (·[m]?) kept.pipelines
      scopes := fun _ _ => rfl
      bus := kept.bus
      touched := fun _ hkey => hkey
      grows := fun key v hv => ?_
      cached := fun key hkey => ?_
      pipelines := kept.pipelines
      tells := ?_
      stock := ?_
      has := touched }
  · rw [after, Function.update_apply]
    split
    next hkey =>
      rw [hkey, hstock] at hv
      cases hv
    next => exact hv
  · rw [get?_finish] at hkey
    split at hkey
    next he => exact .inr (he ▸ touched)
    next => exact .inl hkey
  · rw [hanswer]
    exact tells
  · rw [after, Stock.after, hanswer]
    rfl

end Loading

variable {α : Type} {number : Nat} {post : Shared Nat Session → α → Prop}
  {next : Except StoreFault (Option Nat) → Work α}

/-- A load goes on with its reply, whether this is there at once or has to be waited for. -/
theorem load_alone (h : Settled s) (touched : f.key ∈ s.scopes.keys n)
    (missing : s.cache.record? f.key = none)
    (hnext : ∀ t reply, Replied source n f.entity f.id s t reply →
      source.Asks f.entity f.id s.outer t.outer →
      source.Alone number post ((next reply).run source.supplier number t)) :
    source.Alone number post
      (Supply.afterTurn f next source.supply number (f.load source.supplier s)) := by
  have kept := source.ask_kept f.task (s.waits + 1) f.entity f.id s.outer
  have tells := source.ask_tells f.task (s.waits + 1) f.entity f.id s.outer
  rcases hask : source.supplier.ask f.task (s.waits + 1) (.record f.entity f.id) s.outer with
    ⟨outer, _ | reply⟩
  · rw [hask] at kept
    have replied := source.reply_kept f.entity f.id outer
    have told := source.reply_tells f.entity f.id outer
    rw [kept.read] at told
    have hload : f.load source.supplier s = ({ s with
        cache := (s.cache.claim f.key).1, outer, waits := s.waits + 1 },
        .waiting (.loading s.cache.nextMark)) := by
      simp only [Fetch.load, Fetch.request, hask]
      rfl
    rw [hload]
    exact .parked (hnext _ _ (replied_load h touched missing (kept.trans replied) told _)
      (.held hask))
  · rw [hask] at kept tells
    have hload : f.load source.supplier s = (f.finish s.cache.nextMark reply
        { s with cache := (s.cache.claim f.key).1, outer }, .answered reply) := by
      simp only [Fetch.load, Fetch.request, hask]
      rfl
    rw [hload]
    exact hnext _ _ (replied_load h touched missing kept (tells reply rfl) _) (.answered hask)

/-- A fetch goes on with its reply, and only a record that is not in stock is asked for. -/
theorem fetch_served {entity id : String} (h : Settled s)
    (hnext : ∀ t reply, Replied source n entity id s t reply → Served source entity id s t →
      source.Alone number post ((next reply).run source.supplier number t)) :
    source.Alone number post
      ((Task.fetch (some n) entity id next).run source.supplier number s) := by
  have passes : Passes source n s (s.touch (some n) (Record.key entity id)) := .touch h _
  have touched : Record.key entity id ∈ (s.touch (some n) (Record.key entity id)).scopes.keys n :=
    (Scopes.mem_keys_touch s.scopes n _ _).mpr (.inl rfl)
  have goes : ∀ t reply,
      Replied source n entity id (s.touch (some n) (Record.key entity id)) t reply →
      Served source entity id (s.touch (some n) (Record.key entity id)) t →
      source.Alone number post ((next reply).run source.supplier number t) :=
    fun t reply replied served => hnext t reply (.touch h replied) ⟨served.hit, served.miss⟩
  have hrun : (Task.fetch (some n) entity id next).run source.supply.supplier number s =
      Supply.afterTurn ⟨number, entity, id⟩ next source.supply number
        (Fetch.start source.supplier ⟨number, entity, id⟩ _) := Supply.run_fetch (some n) entity id
  generalize s.touch (some n) (Record.key entity id) = s' at passes touched goes hrun
  show source.Alone number post ((Task.fetch _ _ _ _).run source.supply.supplier number s)
  rw [hrun, Fetch.start_of_free source.supplier _ (passes.settled.free _)]
  cases hplace : s'.cache.record? (Record.key entity id) with
  | some place =>
      rw [show s'.cache.record? (Fetch.key ⟨number, entity, id⟩) = some place from hplace]
      obtain ⟨v, -, -, hstock⟩ := passes.settled.record?_eq hplace
      refine goes _ _ (replied_hit (f := ⟨number, entity, id⟩) passes.settled touched hplace)
        ⟨fun _ => rfl, fun hmiss => ?_⟩
      rw [hstock] at hmiss
      cases hmiss
  | none =>
      rw [show s'.cache.record? (Fetch.key ⟨number, entity, id⟩) = none from hplace]
      refine load_alone passes.settled touched hplace fun t reply replied asks =>
        goes t reply replied ⟨fun hhit => ?_, fun _ => asks⟩
      exact absurd (by rw [Shared.stock, hplace, Option.map_none]) hhit

/-- A fetch goes on with its reply. -/
theorem fetch_alone {entity id : String} (h : Settled s)
    (hnext : ∀ t reply, Replied source n entity id s t reply →
      source.Alone number post ((next reply).run source.supplier number t)) :
    source.Alone number post
      ((Task.fetch (some n) entity id next).run source.supplier number s) :=
  fetch_served h fun t reply replied _ => hnext t reply replied

end Fetching

/-! ## A resolution -/

/-- A resolution comes to what it comes to with the records that are in stock. -/
theorem resolve_alone {α : Type} {number : Nat} {place : Option Nat} {base : Value}
    (r : Resolution α) (h : Settled s) (hplace : s.outer.shelf.Shows base place) :
    source.Alone number
      (fun t a => Reads source n s t ∧
        (a, t.stock) = r.under (.memo (source.read s.outer.store) base) s.stock)
      ((Work.resolve place n r).run source.supplier number s) := by
  induction r generalizing s with
  | done a => exact .finished ⟨.refl h, rfl⟩
  | look next ih =>
      simp only [Work.resolve, Task.run, hplace.get?]
      exact ih base h hplace
  | fetch entity id next ih =>
      rw [Work.resolve_fetch]
      refine fetch_alone h fun t reply replied => ?_
      rw [Work.run_goOn replied.tells.reports]
      refine (ih _ replied.settled (hplace.within replied.within)).mono ?_
      rintro u a ⟨reads, hunder⟩
      refine ⟨replied.toReads.trans reads, ?_⟩
      rw [hunder, replied.read, replied.stock]
      rfl

end Toolbar
