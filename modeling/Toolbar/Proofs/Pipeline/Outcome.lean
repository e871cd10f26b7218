/-
# `Toolbar.Proofs.Pipeline.Outcome` — the buttons that a run makes

The specification of a run reads the store itself, for each configuration by itself: the
configurations in the stable order of their positions, without those whose condition does not hold
on the record, each with its texts replaced.  Nothing of the cache is in it, nor of what other
configurations have fetched before.

    base        the record of the form, empty when it is new
    textFor     a text with its references replaced
    holdsFor    whether the condition of a configuration holds
    buttonsFor  the buttons

`run_specified` says that a run over an empty cache ends with these buttons, when the store does not
change what it answers.
-/
import Toolbar.Proofs.Button.Hash
import Toolbar.Proofs.Button.Order
import Toolbar.Proofs.Pipeline.Cycle

namespace Toolbar

/-- Work with faults, followed by work on its result, comes to a fault or to what follows. -/
theorem Resolution.direct_run_bind {α β : Type} (record : Value)
    (store : String → String → Option Value) (x : ExceptT Fault Resolution α)
    (f : α → ExceptT Fault Resolution β) :
    (x >>= f).run.direct record store =
      match x.run.direct record store with
      | .ok a => (f a).run.direct record store
      | .error e => .error e := by
  show (x.run.bind (ExceptT.bindCont f)).direct record store = _
  rw [direct_bind]
  cases x.run.direct record store <;> rfl

/-- The texts of a configuration in which references are replaced. -/
def Button.Config.texts (c : Button.Config) : List Value :=
  [c.label, c.tooltip, c.url, c.script]

namespace Pipeline

section Specification

variable (read : String → String → Except StoreFault Value) (record : Value)

/-- A text with its references replaced, or the fault of it, where the store itself is read. -/
def textFor (text : Value) : Except Fault Value :=
  (Template.resolve text).run.direct record fun entity id => recordOf (read entity id)

/-- A text with its references replaced; a text that has a fault stays as it is. -/
def textOr (text : Value) : Value :=
  match textFor read record text with
  | .ok v => v
  | .error _ => text

/-- Whether the condition of a configuration holds, where the store itself is read. -/
def holdsFor (host : Action.Host) (c : Button.Config) : Bool :=
  (Expr.holdsFor true host.toSurroundings c.visibility).direct (conditionRecord record)
    fun entity id => recordOf (read entity id)

/-- A configuration with its texts replaced and every other field kept. -/
def replaced (c : Button.Config) : Button.Config :=
  { c with
    label := textOr read record c.label
    tooltip := textOr read record c.tooltip
    url := textOr read record c.url
    script := textOr read record c.script }

/-- The buttons of configurations in this order. -/
def buttonsIn (host : Action.Host) (configs : List Button.Config) : List Button.Shown :=
  (configs.filter (holdsFor read record host)).map fun c => ⟨replaced read record c⟩

/-- The buttons of configurations. -/
def buttonsFor (host : Action.Host) (configs : List Button.Config) : List Button.Shown :=
  buttonsIn read record host (configs.mergeSort fun a b => a.place ≤ b.place)

/-- The record of a form as the store has it; a new one is empty. -/
def base (p : Pipeline) : Except StoreFault Value :=
  if Record.isNew p.recordId then .ok (.map []) else read p.entity (p.recordId.getD "")

end Specification

/-! ## Configurations make what is specified -/

section Makes

variable {read : String → String → Except StoreFault Value} {record : Value}
  {host : Action.Host} {found : String → String → Option Value → Prop}

theorem textFor_eq {text : Value} (h : ∃ v, textFor read record text = .ok v) :
    textFor read record text = .ok (textOr read record text) := by
  obtain ⟨v, hv⟩ := h
  simp only [textOr, hv]

/-- A configuration whose texts have no fault is replaced. -/
theorem resolve_direct {c : Button.Config}
    (h : ∀ text ∈ c.texts, ∃ v, textFor read record text = .ok v) :
    c.resolve.run.direct record (fun entity id => recordOf (read entity id)) =
      .ok (replaced read record c) := by
  have texts : ∀ text ∈ c.texts, (Template.resolve text).run.direct record
      (fun entity id => recordOf (read entity id)) = .ok (textOr read record text) :=
    fun text ht => textFor_eq (h text ht)
  simp only [Button.Config.texts, List.mem_cons, List.not_mem_nil, or_false, forall_eq_or_imp,
    forall_eq] at texts
  obtain ⟨hlabel, htooltip, hurl, hscript⟩ := texts
  simp only [Button.Config.resolve, Resolution.direct_run_bind, hlabel, htooltip, hurl, hscript]
  rfl

variable (hfound : ∀ e i r, found e i r → r = recordOf (read e i))

include hfound

theorem MakesOne.eq {c : Button.Config} {r : Except Fault (Option Button.Shown)}
    (h : MakesOne found record host c r)
    (texts : ∀ text ∈ c.texts, ∃ v, textFor read record text = .ok v) :
    r = .ok (if holdsFor read record host c then some ⟨replaced read record c⟩ else none) := by
  cases h with
  | fault hresolve =>
      have hfault := hresolve.eq_direct hfound
      rw [resolve_direct texts] at hfault
      cases hfault
  | made hresolve hshown =>
      have hreplaced := hresolve.eq_direct hfound
      rw [resolve_direct texts] at hreplaced
      cases hreplaced
      rw [hshown.eq_direct hfound]
      rfl

theorem MakesEach.eq {cs : List Button.Config} {r : Except Fault (List Button.Shown)}
    (h : MakesEach found record host cs r)
    (texts : ∀ c ∈ cs, ∀ text ∈ c.texts, ∃ v, textFor read record text = .ok v) :
    r = .ok (buttonsIn read record host cs) := by
  induction h with
  | nil => rfl
  | @fault c cs f hone =>
      exact nomatch hone.eq hfound (texts c List.mem_cons_self)
  | @faultBehind c cs b f hone _ ih =>
      exact nomatch ih fun c hc => texts c (List.mem_cons_of_mem _ hc)
  | @cons c cs b bs hone _ ih =>
      have hb := hone.eq hfound (texts c List.mem_cons_self)
      have hbs := ih fun c hc => texts c (List.mem_cons_of_mem _ hc)
      cases hb
      cases hbs
      cases hholds : holdsFor read record host c with
      | true => simp [buttonsIn, hholds]
      | false => simp [buttonsIn, hholds]

end Makes

/-! ## Runs end as specified -/

section Runs

variable {supply : Supply} {read : String → String → Except StoreFault Value}
  (fixed : ∀ e i a, supply.May e i a → a = read e i)

include fixed

theorem found_fixed {e i : String} {r : Option Value} (h : supply.Found e i r) :
    r = recordOf (read e i) := by
  obtain ⟨a, hmay, rfl⟩ := h
  rw [fixed e i a hmay]

/-- A cycle that may start ends with the buttons of its configurations, when these can be sorted and
hashed and their texts have no fault. -/
theorem Cycled.eq {record : Value} {p q : Pipeline} {r : Except Fault (List Button.Shown)}
    (h : Cycled supply.Found .still record p q r) (start : p.mayStart = true) {hash : String}
    (hashed : Button.Config.hash p.configs = .ok hash) (placed : ∀ c ∈ p.configs, c.Placed)
    (texts : ∀ c ∈ p.configs, ∀ text ∈ c.texts, ∃ v, textFor read record text = .ok v) :
    q = (p.hashed hash).resolved (buttonsFor read record p.host p.configs) ∧
      r = .ok (buttonsFor read record p.host p.configs) := by
  have sorted := Button.sortByPosition_eq placed
  have makes : ∀ {cs r}, Button.sortByPosition p.configs = .ok cs →
      MakesEach supply.Found record p.host cs r →
      r = .ok (buttonsFor read record p.host p.configs) := by
    intro cs r hsort hmakes
    rw [sorted] at hsort
    cases hsort
    have found : ∀ e i r, supply.Found e i r → r = recordOf (read e i) :=
      fun e i r => found_fixed fixed
    exact hmakes.eq found fun c hc => texts c (List.mem_mergeSort.mp hc)
  cases h with
  | refused hno => exact absurd (start.symm.trans hno) Bool.noConfusion
  | unhashed _ hhash => exact nomatch hashed.symm.trans hhash
  | unsorted _ _ hsort => exact nomatch sorted.symm.trans hsort
  | failed _ _ hsort hmakes _ => exact nomatch makes hsort hmakes
  | resolved _ hhash hsort hmakes hmay =>
      cases hashed.symm.trans hhash
      cases makes hsort hmakes
      cases hmay
      exact ⟨rfl, rfl⟩

/-- **A run is what its specification says.**  Over an empty cache, when the store has one answer
for each entity and id and configurations have integer positions and a hash, a run ends: in error
and without buttons when the record cannot be had, and else, if no text has a fault, with the
buttons that the store itself gives.  This is so even when others fill the cache while it waits.  A
new record is empty, and the load of it asks for nothing. -/
theorem run_specified {s : Shared Nat Session} {n number : Nat} {p : Pipeline} {hash : String}
    (serves : supply.Serves s.outer) (empty : ∀ key, s.cache.get? key = none)
    (has : s.outer.pipelines[n]? = some p)
    (placed : ∀ c ∈ p.configs, c.Placed) (hashed : Button.Config.hash p.configs = .ok hash) :
    supply.Ends .still n number (fun _ => True)
      (fun t r => ∃ q, t.outer.pipelines[n]? = some q ∧
        (∀ f, base read p = .error f → q.stage = .error ∧ q.buttons = [] ∧ r = .ok []) ∧
        ∀ record, base read p = .ok record →
          (∀ c ∈ p.configs, ∀ text ∈ c.texts, ∃ v, textFor read record text = .ok v) →
          q.stage = .resolved ∧ q.error = none ∧
            q.buttons = buttonsFor read record p.host p.configs ∧ r = .ok q.buttons)
      s.outer.shelf ((run n).run supply.supplier number s) ∧
    (Record.isNew p.recordId = true → ∀ sup : Supplier Nat StoreFault Session,
      (load n).run sup number s =
        ({ s with outer := (s.outer.onPipeline n loading).newPipelineRecord n },
          .finished true)) := by
  have h : Stands supply n p s := ⟨.of_empty serves empty, has⟩
  have cycled : ∀ {record q r place other},
      Cycled supply.Found .still record (p.loading.loaded place other) q r →
      (∀ c ∈ p.configs, ∀ text ∈ c.texts, ∃ v, textFor read record text = .ok v) →
      q.stage = .resolved ∧ q.error = none ∧
        q.buttons = buttonsFor read record p.host p.configs ∧ r = .ok q.buttons := by
    intro record q r place other hcycled texts
    obtain ⟨rfl, rfl⟩ := hcycled.eq fixed rfl hashed placed texts
    exact ⟨rfl, rfl, rfl, rfl⟩
  refine ⟨(run_ends h).mono (fun _ h => h) ?_, fun hnew sup => ?_⟩
  · -- Of the schedule nothing is left but how the run has ended.
    rintro t r ⟨v, q, ht, hran⟩
    refine ⟨q, ht.has, ?_⟩
    cases hran with
    | new hnew hcycled =>
        rw [base, if_pos hnew]
        refine ⟨(fun f hf => nomatch hf), fun record hrecord texts => ?_⟩
        cases hrecord
        exact cycled hcycled texts
    | stored hnew hanswered =>
        rw [base, if_neg (by rw [hnew]; exact Bool.false_ne_true)]
        cases hanswered with
        | failed hmay =>
            rw [← fixed _ _ _ hmay]
            exact ⟨fun f _ => ⟨rfl, rfl, rfl⟩, fun record hrecord => nomatch hrecord⟩
        | loaded hmay hcycled =>
            rw [← fixed _ _ _ hmay]
            refine ⟨(fun f hf => nomatch hf), fun record hrecord texts => ?_⟩
            cases hrecord
            exact cycled hcycled texts
  · have hloading : (s.outer.onPipeline n loading).pipeline n = p.loading :=
      (h.change loading).pipeline
    rw [load]
    show Task.run sup number (if Record.isNew
      ((s.outer.onPipeline n loading).pipeline n).recordId then _ else _) _ = _
    rw [hloading, if_pos (show Record.isNew p.loading.recordId = true from hnew)]
    rfl

end Runs

/-- A store of one contact. -/
def contacts : Store :=
  { fixed := [("contact:c1", .map [("name", .text "Ada"), ("vip", .bool true)])] }

def contactAnswer (entity id : String) : Except StoreFault Value :=
  contacts.answer (.record entity id)

def contactSupply : Supply :=
  .ofSessions 1 (.int 1) (fun entity id a => a = contactAnswer entity id) fun hkey hnull h => by
    -- Nothing but the key decides whether there is a record.
    simp only [contactAnswer, Store.answer, Store.keyOf, hkey] at h ⊢
    split at h
    · cases h
    · cases h
      simp_all
    next => cases h

/-- The form of the contact, on a page with an empty context, with three buttons of which one is not
for her and another for pages without a log. -/
def contactForm : Pipeline :=
  { entity := "contact"
    recordId := some "c1"
    host := { context := .map [] }
    configs :=
      [{ label := .text "Call \x7bname\x7d", position := .num (.int 2),
         visibility := .text "\x7bvip\x7d" },
        { label := .text "Hide", position := .num (.int 1), visibility := .text "!\x7bvip\x7d" },
        { label := .text "Mail", position := .num (.int 1),
          visibility := .text "context.log == null" }] }

def contactSession : Shared Nat Session :=
  { outer := { store := contacts, pipelines := [contactForm] } }

theorem contact_specified : contactSupply.Ends .still 0 0 (fun _ => True)
    (fun t r => ∃ q, t.outer.pipelines[0]? = some q ∧ q.stage = .resolved ∧
      q.buttons.map (·.config.label.text?) = [some "Mail", some "Call Ada"] ∧ r = .ok q.buttons)
    contactSession.outer.shelf ((run 0).run contactSupply.supplier 0 contactSession) := by
  have fixed : ∀ e i a, contactSupply.May e i a → a = contactAnswer e i := fun _ _ _ h => h
  have serves : contactSupply.Serves contactSession.outer := fun _ _ => rfl
  have has : contactSession.outer.pipelines[0]? = some contactForm := rfl
  have hashed : ∀ c ∈ contactForm.configs, ∀ f ∈ c.fields, f.2.HasCanonical := by decide +kernel
  obtain ⟨hash, hashed⟩ := Button.Config.hash_eq_ok_iff.mpr hashed
  refine (run_specified fixed serves (fun _ => rfl) has (by decide) hashed).1.mono (fun _ h => h) ?_
  rintro t r ⟨q, hq, -, hbuttons⟩
  have hbase : base contactAnswer contactForm =
      .ok (.map [("name", .text "Ada"), ("vip", .bool true)]) := by
    simp [base, contactForm, Record.isNew, Record.emptyId, contactAnswer, contacts, Store.answer,
      Store.keyOf, Record.key]
  obtain ⟨hstage, -, hq', hr⟩ := hbuttons _ hbase (by decide +kernel)
  refine ⟨q, hq, hstage, ?_, hr⟩
  have hsorted : contactForm.configs.mergeSort (fun a b => a.place ≤ b.place) =
      contactForm.configs.drop 1 ++ contactForm.configs.take 1 := by
    simp [contactForm, List.mergeSort, Button.Config.place, Value.asNumber?]
  rw [hq', buttonsFor, hsorted]
  decide +kernel

end Pipeline

end Toolbar
