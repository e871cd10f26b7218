/-
# `Toolbar.Proofs.Pipeline.Faults` — faults of a pipeline stay inside

A store may fail whenever it is asked, and a configuration may hold any values.  As long as each
list of configurations has a hash, no call passes a fault on, and after each call that has ended the
pipeline is at rest: idle, in error or resolved.  From there a list that can be resolved is
resolved, whatever went wrong before.

A list without a hash is outside of this.  The hash is computed when the cycle has begun and before
anything in it is guarded, so its fault is passed on and the pipeline stays at `resolving`, where
new configurations start no cycle (`Cycled.stuck`, `Replaced.stuck`).
-/
import Toolbar.Proofs.Button.Hash
import Toolbar.Proofs.Pipeline.Cycle

namespace Toolbar

namespace Pipeline

/-! ## What calls come to -/

/-- How a call leaves a pipeline, with its record, and what it returns. -/
def Called (supply : Supply) (record : Value) (p : Pipeline) :
    Call → Value → Pipeline → Except Fault (List Button.Shown) → Prop
  | .run, v, q, r => Ran supply p v q r
  | .reload, v, q, r => Ran supply p v q r
  | .setConfigs configs, v, q, r => v = record ∧ Replaced supply .still record p configs q r
  | .saved payload, v, q, r =>
      r = .ok [] ∧ if p.isAbout payload then ∃ r', Ran supply p v q r' else v = record ∧ q = p

section Calling

variable {supply : Supply} {n number : Nat} {p : Pipeline} {record : Value}
  {s : Shared Nat Session}

theorem call_ends (h : At supply n p record s) (c : Call) :
    supply.Ends .still n number (fun _ => True)
      (fun t r => ∃ v q, At supply n q v t ∧ Called supply record p c v q r) s.outer.shelf
      ((c.work n).run supply.supplier number s) := by
  cases c with
  | run => exact run_ends h.toStands
  | reload => exact reload_ends h.toStands
  | setConfigs configs =>
      refine (setConfigs_ends configs h fun _ _ _ => trivial).mono (fun _ h => h) ?_
      exact fun t r ⟨q, ht, hr⟩ => ⟨record, q, ht, rfl, hr⟩
  | saved payload =>
      rw [saved_work, h.pipeline]
      cases habout : p.isAbout payload with
      | true =>
          rw [if_pos rfl]
          refine (reload_ends h.toStands).bind fun t r ⟨v, q, ht, hr⟩ => ?_
          refine .finished (.refl _) ⟨v, q, ht, rfl, ?_⟩
          rw [if_pos habout]
          exact ⟨r, hr⟩
      | false =>
          refine .finished (.refl _) ⟨record, p, h, rfl, ?_⟩
          rw [if_neg (by rw [habout]; exact Bool.false_ne_true)]
          exact ⟨rfl, rfl⟩

end Calling

/-! ## At rest -/

/-- A pipeline at rest, over configurations that have a hash. -/
structure Rests (p : Pipeline) : Prop where
  stage : p.stage = .idle ∧ p.recordLoaded = false ∨ p.stage = .error ∨ p.stage = .resolved
  hashed : ∃ h, Button.Config.hash p.configs = .ok h

/-- The configurations that a call brings have a hash. -/
def Call.Hashed : Call → Prop
  | .setConfigs configs => ∃ h, Button.Config.hash configs = .ok h
  | _ => True

section Resting

variable {supply : Supply} {found : String → String → Option Value → Prop} {record v : Value}
  {p q : Pipeline} {r : Except Fault (List Button.Shown)}

/-- A cycle that ends leaves the pipeline at rest; one that may not start leaves it as it is. -/
theorem Cycled.rests (h : Cycled found .still record p q r)
    (hashed : ∃ h, Button.Config.hash p.configs = .ok h)
    (refused : p.mayStart = false → Rests p) : Rests q ∧ ∃ buttons, r = .ok buttons := by
  cases h with
  | refused hno => exact ⟨refused hno, _, rfl⟩
  | unhashed _ hhash =>
      obtain ⟨hash, hok⟩ := hashed
      exact nomatch hhash.symm.trans hok
  | unsorted _ _ _ => exact ⟨⟨.inr (.inl rfl), hashed⟩, _, rfl⟩
  | failed _ _ _ _ hmay =>
      cases hmay
      exact ⟨⟨.inr (.inl rfl), hashed⟩, _, rfl⟩
  | resolved _ _ _ _ hmay =>
      cases hmay
      exact ⟨⟨.inr (.inr rfl), hashed⟩, _, rfl⟩

theorem Ran.rests (h : Ran supply p v q r) (hp : Rests p) :
    Rests q ∧ ∃ buttons, r = .ok buttons := by
  cases h with
  | new _ hcycled => exact hcycled.rests hp.hashed fun hno => nomatch hno
  | stored _ hanswered =>
      cases hanswered with
      | failed _ => exact ⟨⟨.inr (.inl rfl), hp.hashed⟩, _, rfl⟩
      | loaded _ hcycled => exact hcycled.rests hp.hashed fun hno => nomatch hno

theorem Replaced.rests {configs : List Button.Config}
    (h : Replaced supply .still record p configs q r)
    (hp : Rests p) (hashed : ∃ h, Button.Config.hash configs = .ok h) :
    Rests q ∧ ∃ buttons, r = .ok buttons := by
  cases h with
  | kept _ _ _ => exact ⟨hp, _, rfl⟩
  | unhashed _ hhash =>
      obtain ⟨hash, hok⟩ := hashed
      exact nomatch hhash.symm.trans hok
  | replaced _ hcycled => exact hcycled.rests hashed fun _ => ⟨hp.stage, hashed⟩

theorem Called.rests {c : Call} (h : Called supply record p c v q r) (hp : Rests p)
    (hc : c.Hashed) : Rests q ∧ ∃ buttons, r = .ok buttons := by
  cases c with
  | run => exact Ran.rests h hp
  | reload => exact Ran.rests h hp
  | setConfigs configs => exact Replaced.rests h.2 hp hc
  | saved payload =>
      obtain ⟨rfl, hsaved⟩ := h
      refine ⟨?_, _, rfl⟩
      split at hsaved
      · obtain ⟨r', hran⟩ := hsaved
        exact (hran.rests hp).1
      · exact hsaved.2 ▸ hp

end Resting

/-! ## Without a hash -/

section Stuck

variable {supply : Supply} {found : String → String → Option Value → Prop} {drift : Drift}
  {record : Value} {p q : Pipeline} {r : Except Fault (List Button.Shown)}

/-- A cycle over configurations without a hash passes the fault on and stays where it is. -/
theorem Cycled.stuck {f : Fault} (h : Cycled found drift record p q r) (start : p.mayStart = true)
    (unhashed : Button.Config.hash p.configs = .error f) :
    q.stage = .resolving ∧ r = .error f := by
  cases h with
  | refused hno => exact absurd (start.symm.trans hno) Bool.noConfusion
  | unhashed _ hhash =>
      cases unhashed.symm.trans hhash
      exact ⟨rfl, rfl⟩
  | unsorted _ hhash _ => exact nomatch unhashed.symm.trans hhash
  | failed _ hhash _ _ _ => exact nomatch unhashed.symm.trans hhash
  | resolved _ hhash _ _ _ => exact nomatch unhashed.symm.trans hhash

/-- There new configurations are put down, and no cycle is about them. -/
theorem Replaced.stuck {configs : List Button.Config}
    (h : Replaced supply drift record p configs q r) (stuck : p.stage = .resolving) :
    q = { p with configs } ∧ r = .ok p.buttons := by
  have refuses : ({ p with configs } : Pipeline).mayStart = false := by
    simp [mayStart, stuck, Stage.mayStart]
  cases h with
  | kept hstage _ _ => simp [stuck] at hstage
  | unhashed hstage _ => simp [stuck] at hstage
  | replaced _ hcycled =>
      cases hcycled with
      | refused _ => exact ⟨rfl, rfl⟩
      | unhashed start _ => exact nomatch refuses.symm.trans start
      | unsorted start _ _ => exact nomatch refuses.symm.trans start
      | failed start _ _ _ _ => exact nomatch refuses.symm.trans start
      | resolved start _ _ _ _ => exact nomatch refuses.symm.trans start

end Stuck

/-! ## Recovery -/

/-- Configurations that are resolved about a record whatever the store answers: they can be sorted,
and no text has a fault. -/
def Resolvable (supply : Supply) (record : Value) (configs : List Button.Config) : Prop :=
  ∃ sorted, Button.sortByPosition configs = .ok sorted ∧
    ∀ c ∈ sorted, ∀ f, ¬ c.resolve.run.Yields supply.Found record (.error f)

theorem MakesEach.ok {found : String → String → Option Value → Prop} {record : Value}
    {host : Action.Host} {cs : List Button.Config} {r : Except Fault (List Button.Shown)}
    (h : MakesEach found record host cs r)
    (texts : ∀ c ∈ cs, ∀ f, ¬ c.resolve.run.Yields found record (.error f)) :
    ∃ buttons, r = .ok buttons := by
  induction h with
  | nil => exact ⟨[], rfl⟩
  | @fault c cs f hone =>
      cases hone with
      | fault hresolve => exact absurd hresolve (texts c List.mem_cons_self f)
  | faultBehind _ _ ih =>
      obtain ⟨buttons, hbuttons⟩ := ih fun c hc => texts c (List.mem_cons_of_mem _ hc)
      cases hbuttons
  | cons _ _ _ => exact ⟨_, rfl⟩

/-- Other configurations that can be resolved are resolved, when the record is loaded. -/
theorem Replaced.resolved {supply : Supply} {record : Value} {p q : Pipeline}
    {configs : List Button.Config} {r : Except Fault (List Button.Shown)} {hash : String}
    (h : Replaced supply .still record p configs q r) (hp : Rests p)
    (loaded : p.recordLoaded = true) (hashed : Button.Config.hash configs = .ok hash)
    (differs : p.cycleHash ≠ some hash)
    (resolvable : Resolvable supply record configs) :
    q.stage = .resolved ∧ q.error = none ∧ r = .ok q.buttons := by
  obtain ⟨sorted, hsorted, texts⟩ := resolvable
  have start : ({ p with configs } : Pipeline).mayStart = true := by
    rcases hp.stage with ⟨-, hno⟩ | hstage | hstage
    · exact absurd (hno.symm.trans loaded) Bool.false_ne_true
    · simp [mayStart, loaded, hstage, Stage.mayStart]
    · simp [mayStart, loaded, hstage, Stage.mayStart]
  cases h with
  | kept _ hhash hsame =>
      cases hashed.symm.trans hhash
      exact absurd hsame differs
  | unhashed _ hhash => exact nomatch hashed.symm.trans hhash
  | replaced _ hcycled =>
      cases hcycled with
      | refused hno => exact absurd (start.symm.trans hno) Bool.noConfusion
      | unhashed _ hhash => exact nomatch hashed.symm.trans hhash
      | unsorted _ _ hsort => exact nomatch hsorted.symm.trans hsort
      | failed _ _ hsort hmakes _ =>
          cases hsorted.symm.trans hsort
          obtain ⟨buttons, hbuttons⟩ := hmakes.ok texts
          cases hbuttons
      | resolved _ _ _ _ hmay =>
          cases hmay
          exact ⟨rfl, rfl, rfl⟩

/-! ## Sequences of calls -/

section Sequences

variable (supply : Supply) (n : Nat)

/-- After a call: it has passed no fault on and the pipeline is at rest.  When its record is loaded,
other configurations that can be resolved are resolved from here. -/
def Safe (t : Shared Nat Session) (r : Except Fault (List Button.Shown)) : Prop :=
  (∃ buttons, r = .ok buttons) ∧ ∃ q, t.outer.pipelines[n]? = some q ∧
    (q.stage = .idle ∨ q.stage = .error ∨ q.stage = .resolved) ∧
    ∀ number configs hash, q.recordLoaded = true → Button.Config.hash configs = .ok hash →
      q.cycleHash ≠ some hash → Resolvable supply (t.outer.shelf.get? q.record) configs →
      supply.Ends .still n number (fun _ => True)
        (fun u r => ∃ q', u.outer.pipelines[n]? = some q' ∧ q'.stage = .resolved ∧
          q'.error = none ∧ r = .ok q'.buttons)
        t.outer.shelf ((setConfigs n configs).run supply.supplier number t)

/-- Calls one after the other all end, each safely; the store may go on between them. -/
def AllSafe : Nat → List Call → Shared Nat Session → Prop
  | _, [], _ => True
  | number, c :: cs, s =>
      supply.Ends .still n number (fun _ => True)
        (fun t r => Safe supply n t r ∧
          ∀ u, supply.Drifts .still n t u → AllSafe (number + 1) cs u)
        s.outer.shelf ((c.work n).run supply.supplier number s)

variable {supply n}

theorem At.safe {q : Pipeline} {v : Value} {t : Shared Nat Session}
    {r : Except Fault (List Button.Shown)} (h : At supply n q v t) (hq : Rests q)
    (hr : ∃ buttons, r = .ok buttons) : Safe supply n t r := by
  refine ⟨hr, q, h.has, hq.stage.imp_left And.left, ?_⟩
  intro number configs hash loaded hashed differs resolvable
  rw [(h.texts loaded).get?] at resolvable
  refine (setConfigs_ends configs h fun _ _ _ => trivial).mono (fun _ h => h) ?_
  exact fun u r ⟨q', hu, hreplaced⟩ =>
    ⟨q', hu.has, hreplaced.resolved hq loaded hashed differs resolvable⟩

theorem allSafe (calls : List Call) {number : Nat} {p : Pipeline} {record : Value}
    {s : Shared Nat Session} (h : At supply n p record s) (hp : Rests p)
    (hashed : ∀ c ∈ calls, c.Hashed) : AllSafe supply n number calls s := by
  induction calls generalizing number p record s with
  | nil => exact trivial
  | cons c calls ih =>
      refine (call_ends h c).mono (fun _ h => h) ?_
      rintro t r ⟨v, q, ht, hcalled⟩
      obtain ⟨hq, hr⟩ := hcalled.rests hp (hashed c List.mem_cons_self)
      refine ⟨ht.safe hq hr, fun u hu => ?_⟩
      -- Between the calls the store goes on, and the pipeline is left as it is.
      obtain ⟨_, hstill, rfl⟩ := ht.drifts hu
      exact ih hstill hq fun c hc => hashed c (List.mem_cons_of_mem _ hc)

/-- **Faults neither escape nor get a pipeline stuck.**  From its construction on, whatever the
store answers and whatever values configurations hold, calls one after the other all end, pass no
fault on and leave the pipeline at rest, as long as each list of configurations has a hash. -/
theorem calls_safe {p : Pipeline} {s : Shared Nat Session} (coherent : supply.Coherent s)
    (has : s.outer.pipelines[n]? = some p) (idle : p.stage = .idle)
    (unloaded : p.recordLoaded = false)
    (hashed : ∃ hash, Button.Config.hash p.configs = .ok hash) {calls : List Call}
    (allHashed : ∀ c ∈ calls, c.Hashed) (number : Nat) : AllSafe supply n number calls s := by
  have h : Stands supply n p s := ⟨coherent, has⟩
  exact allSafe calls (h.unloaded unloaded .null) ⟨.inl ⟨idle, unloaded⟩, hashed⟩ allHashed

/-- A number and a text have no order. -/
def unsortable : List Button.Config :=
  [{ label := .text "Call", position := .num (.int 1) },
    { label := .text "Mail", position := .text "last" }]

theorem unsortable_safe : AllSafe (.anything 1 (.int 1)) 0 0 [.run, .setConfigs unsortable, .reload]
    { outer := { pipelines := [{ entity := "contact", recordId := some "c1" }] } } := by
  have hashed : ∃ hash, Button.Config.hash unsortable = .ok hash :=
    Button.Config.hash_eq_ok_iff.mpr (by decide +kernel)
  refine calls_safe (.of_empty (fun _ _ => trivial) fun _ => rfl) rfl rfl rfl
    (Button.Config.hash_eq_ok_iff.mpr (List.forall_mem_nil _)) (fun c hc => ?_) 0
  simp only [List.mem_cons, List.not_mem_nil, or_false] at hc
  rcases hc with rfl | rfl | rfl
  · trivial
  · exact hashed
  · trivial

end Sequences

end Pipeline

end Toolbar
