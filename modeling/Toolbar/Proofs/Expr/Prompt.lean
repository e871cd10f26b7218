/-
# `Toolbar.Proofs.Expr.Prompt` — expressions that need not wait

An expression is evaluated in two ways.  Who cannot wait collects the fields of the record at hand
and refuses every reference through a lookup; who can wait collects one reference after the other
and follows lookups.  The two collect by different rules, but without a lookup they collect the same
fields in the same order, and then they evaluate alike.

    references        who cannot wait       who can wait
    none dotted       evaluates             evaluates alike, and asks for nothing
    one dotted        false                 whatever the records say

So the left column is never true where the right one is false (`run_holdsFor`).  Which fields the
expression has does not matter here: a field that is no reference is null on both sides.
-/
import Toolbar.Proofs.Expr.References
import Toolbar.Proofs.Record.Loader
import Toolbar.Session.Basic

namespace Toolbar

/-! ## Resolutions that need not wait -/

namespace Resolution

variable {α β : Type}

/-- A resolution about a record comes to its result without a fetch. -/
inductive Prompt (base : Value) : Resolution α → α → Prop
  | done (a : α) : Prompt base (.done a) a
  | look {next : Value → Resolution α} {a : α} :
      Prompt base (next base) a → Prompt base (.look next) a

theorem Prompt.bind {base : Value} {r : Resolution α} {a : α} {f : α → Resolution β} {b : β}
    (hr : Prompt base r a) (hf : Prompt base (f a) b) : Prompt base (r.bind f) b := by
  induction hr with
  | done a => exact hf
  | look _ ih => exact .look (ih hf)

theorem Prompt.asks {base : Value} {r : Resolution α} {a : α} (h : Prompt base r a)
    (store : String → String → Option Value) : r.asks base store = [] := by
  induction h with
  | done a => rfl
  | look _ ih => exact ih

/-- As work of a session it is done at once, and it leaves everything as it is. -/
theorem Prompt.run {s : Shared Nat Session} {place : Option Nat} {r : Resolution α} {a : α}
    (h : Prompt (s.outer.shelf.get? place) r a) (sup : Supplier Nat StoreFault Session)
    (number scope : Nat) : (Work.resolve place scope r).run sup number s = (s, .finished a) := by
  induction h with
  | done a => rfl
  | look _ ih => exact ih

end Resolution

/-- A field that is set to the value that it has stays as it is. -/
theorem Fields.set_eq_self {key : String} {v : Value} {fields : Fields}
    (h : fields.get? key = some v) : fields.set key v = fields := by
  induction fields with
  | nil => cases h
  | cons field fields ih =>
      obtain ⟨k, w⟩ := field
      rw [get?] at h
      rw [set]
      split
      next hk =>
        rw [if_pos hk] at h
        cases h
        rw [beq_iff_eq.mp hk]
      next hk =>
        rw [if_neg hk] at h
        rw [ih h]

namespace Expr

/-! ## What is collected without a lookup -/

/-- Only fields of a record have been collected. -/
def OwnFields (record : Value) (known : Fields) : Prop :=
  ∀ key v, known.get? key = some v → v = (record.field key).coerce

theorem OwnFields.set {record : Value} {known : Fields} (h : OwnFields record known)
    (key : String) : OwnFields record (known.set key (record.field key).coerce) := by
  intro k v hv
  rw [Fields.get?_set] at hv
  by_cases hk : k = key
  · rw [if_pos hk] at hv
    cases hv
    rw [hk]
  · rw [if_neg hk] at hv
    exact h k v hv

/-- Collecting a field that is known already is the same as setting it again. -/
theorem prompt_collectFrom (lookups : Bool) (record : Value) {paths : List (List Char)}
    (undotted : ∀ p ∈ paths, isDotted p = false) {known : Fields} (own : OwnFields record known) :
    Resolution.Prompt record (collectFrom lookups known paths)
      (known.update (paths.map fun p =>
        (String.ofList p, (record.field (String.ofList p)).coerce))) := by
  induction paths generalizing known with
  | nil => exact .done known
  | cons p paths ih =>
      have hp : isDotted p = false := undotted p List.mem_cons_self
      have hrest : ∀ p ∈ paths, isDotted p = false := by
        intro q hq
        exact undotted q (List.mem_cons_of_mem p hq)
      have next := ih hrest (own.set (String.ofList p))
      show Resolution.Prompt record (if (known.get? (String.ofList p)).isSome then _ else _) _
      split
      next hknown =>
        obtain ⟨v, hv⟩ := Option.isSome_iff_exists.mp hknown
        have hset : known.set (String.ofList p) (record.field (String.ofList p)).coerce = known := by
          rw [← own _ v hv]
          exact Fields.set_eq_self hv
        rw [hset] at next
        show Resolution.Prompt record _ (Fields.update (known.set _ _) _)
        rw [hset]
        exact next
      next =>
        rw [hp]
        exact .bind (.look (.done _)) next

theorem prompt_collect (lookups : Bool) (record : Value) {paths : List (List Char)}
    (undotted : ∀ p ∈ paths, isDotted p = false) :
    Resolution.Prompt record (collect lookups paths) (collectNow record paths) := by
  have hall : paths.filter (!isDotted ·) = paths := by
    refine List.filter_eq_self.mpr ?_
    intro p hp
    rw [undotted p hp]
    rfl
  have nothing : OwnFields record [] := by
    intro key v h
    cases h
  rw [collectNow, hall]
  exact prompt_collectFrom lookups record undotted nothing

/-! ## The truth of an expression -/

/-- No reference of a source goes through a lookup. -/
def Undotted (source : Option String) : Prop :=
  ∀ text, source = some text → ∀ p ∈ references text, isDotted p = false

theorem prompt_holdsFor (lookups : Bool) (record : Value) (around : Surroundings)
    {source : Option String} (undotted : Undotted source) :
    Resolution.Prompt record (holdsFor lookups around (Value.ofText? source))
      (holdsNow record around source) := by
  cases source with
  | none => exact .done true
  | some text =>
      have hrefs := undotted text rfl
      have hany : (references text).any isDotted = false := by
        refine List.any_eq_false.mpr ?_
        intro p hp
        rw [hrefs p hp]
        exact Bool.false_ne_true
      show Resolution.Prompt record (if text.isEmpty then _ else _)
        (if text.isEmpty then _ else _)
      split
      · exact .done true
      · rw [hany]
        exact .bind (prompt_collect lookups record hrefs) (.look (.done _))

/-- An expression that holds for who cannot wait has no reference through a lookup. -/
theorem undotted_of_holdsNow {record : Value} {around : Surroundings} {source : Option String}
    (h : holdsNow record around source = true) : Undotted source := by
  rintro text rfl p hp
  cases hdot : isDotted p with
  | false => rfl
  | true =>
      rw [holdsNow_of_dotted hp hdot record around] at h
      cases h

/-- **Who need not wait and who can wait agree.**  Without a reference through a lookup an
expression about a record has one truth for both, whatever its surroundings, and whether lookups are
followed or not.  Who can wait then asks for no record, so nothing changes in the cache, in its
scopes and outside them.  An expression that holds for who cannot wait holds for the other too. -/
theorem run_holdsFor (sup : Supplier Nat StoreFault Session) (number scope : Nat)
    (place : Option Nat) (s : Shared Nat Session) (lookups : Bool) (around : Surroundings)
    (source : Option String) :
    (Undotted source →
      (Work.resolve place scope (holdsFor lookups around (Value.ofText? source))).run
          sup number s =
        (s, .finished (holdsNow (s.outer.shelf.get? place) around source)) ∧
      ∀ store, (holdsFor lookups around (Value.ofText? source)).asks
        (s.outer.shelf.get? place) store = []) ∧
    (holdsNow (s.outer.shelf.get? place) around source = true →
      (Work.resolve place scope (holdsFor lookups around (Value.ofText? source))).run
        sup number s = (s, .finished true)) := by
  constructor
  · intro undotted
    have prompt := prompt_holdsFor lookups (s.outer.shelf.get? place) around undotted
    exact ⟨prompt.run sup number scope, prompt.asks⟩
  · intro holds
    have prompt := prompt_holdsFor lookups (s.outer.shelf.get? place) around
      (undotted_of_holdsNow holds)
    rw [holds] at prompt
    exact prompt.run sup number scope

/-- A session with one record, whose store holds every answer back. -/
def oneRecord : Session :=
  { store := { manual := true }, shelf := ⟨[.map [("a", .text "xy")]]⟩ }

/-- An argument behind a lookup is no reference: nobody waits for it, and it is null for both. -/
theorem hiddenLookup_agrees :
    Undotted (some "\x7ba\x7d.startsWith(\x7bowner.name\x7d) == false") ∧
    holdsNow (.map [("a", .text "xy")]) {}
      (some "\x7ba\x7d.startsWith(\x7bowner.name\x7d) == false") = true ∧
    (Work.resolve (some 0) 0 (holdsFor true {}
        (.text "\x7ba\x7d.startsWith(\x7bowner.name\x7d) == false"))).run
      (Session.supplier 5 (.int 1)) 1 { outer := oneRecord } =
        ({ outer := oneRecord }, .finished true) := by
  have undotted : Undotted (some "\x7ba\x7d.startsWith(\x7bowner.name\x7d) == false") := by
    intro text htext p hp
    cases htext
    have hrefs : references "\x7ba\x7d.startsWith(\x7bowner.name\x7d) == false" =
        ["a".toList] := by decide +kernel
    rw [hrefs] at hp
    rw [List.mem_singleton.mp hp]
    rfl
  have holds : holdsNow (.map [("a", .text "xy")]) {}
      (some "\x7ba\x7d.startsWith(\x7bowner.name\x7d) == false") = true := by decide +kernel
  obtain ⟨alike, -⟩ := run_holdsFor (Session.supplier 5 (.int 1)) 1 0 (some 0)
    { outer := oneRecord } true {}
    (some "\x7ba\x7d.startsWith(\x7bowner.name\x7d) == false")
  refine ⟨undotted, holds, ?_⟩
  rw [← holds]
  exact (alike undotted).1

end Expr

end Toolbar
