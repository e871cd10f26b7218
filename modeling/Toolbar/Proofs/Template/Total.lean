/-
# `Toolbar.Proofs.Template.Total` — texts are always resolved

Nothing that happens while references are replaced is a fault for the text.  A hop that fails, a
record that is none, a field that is missing, a method that nobody has and a method that cannot use
its arguments all leave the text with something in place of the reference.  The only fault left is
that of a value without a display, so there is none where every value that the references come to is
`Writable`.

    met             the values of the references of some texts, for a loader
    resolveAll_ok   for any loader: where these are writable, the texts are resolved
-/
import Toolbar.Proofs.Method.Results
import Toolbar.Proofs.Session.Alone
import Toolbar.Proofs.Template.Positional
import Toolbar.Proofs.Template.Suffix

namespace Toolbar

namespace Template

/-! ## One reference -/

/-- A value with a display has one as the value that a method is called on, and its methods are such
there. -/
theorem subject_shown (method : List Char) {v : Value} (h : v.Writable) :
    (subject method v).Displayable ∧ Method.AllShown (Method.table (subject method v)) := by
  rw [subject_eq]
  cases stampFor? method v with
  | none => exact ⟨h.displayable, Method.allShown_table h⟩
  | some t => exact ⟨Value.displayable_stamp t, Method.allShown_ofStamp t⟩

/-- A reference to a value that is writable is replaced, whatever its method and arguments are. -/
theorem replacement_ok (t : Token) {v : Value} (h : v.Writable) :
    ∃ r, replacement t v = .ok r := by
  unfold replacement
  cases t.method with
  | none => exact h.displayable
  | some method =>
      dsimp only
      split
      next =>
        obtain ⟨alone, shown⟩ := subject_shown method h
        split
        next r hcall => exact Method.shown_call? shown hcall r rfl
        next => exact alone
      next =>
        obtain ⟨s, hs⟩ := h.displayable
        exact ⟨_, by rw [hs]; rfl⟩

/-! ## Texts, for any loader -/

section Loading

variable {σ : Type} (l : Loader σ)

/-- The values of the references of texts, each text's after the one's before it. -/
def met : List (Option String) → σ → List Value
  | [], _ => []
  | none :: texts, s => met texts s
  | some text :: texts, s =>
      (lookUps l [] (Token.extract text.toList) s).map Prod.snd ++
        met texts ((resolveText text).run.under l s).2

/-- Where a value is, it is writable. -/
def AllWritable (vs : List Value) : Prop :=
  ∀ v ∈ vs, v.isNull = false → v.Writable

variable {l} {known : List (List Char × Value)}

theorem mem_lookUps {entry : List Char × Value} (ts : List Token) (s : σ) (h : entry ∈ known) :
    entry ∈ lookUps l known ts s := by
  induction ts generalizing known s with
  | nil => exact h
  | cons t ts ih => exact ih _ (List.mem_cons_of_mem _ h)

theorem substitute_ok (text : List Char) {ts : List Token} {s : σ}
    (h : AllWritable ((lookUps l known ts s).map Prod.snd)) :
    ∃ cs, ((substitute known text ts).run.under l s).1 = .ok cs := by
  induction ts generalizing known text s with
  | nil => exact ⟨text, rfl⟩
  | cons t ts ih =>
      have hmem : (lookUp l known t s).1 ∈ (lookUps l known (t :: ts) s).map Prod.snd :=
        List.mem_map.mpr ⟨_, mem_lookUps ts _ List.mem_cons_self, rfl⟩
      rw [substitute_cons]
      cases hnull : (lookUp l known t s).1.isNull with
      | true => exact ih text h
      | false =>
          obtain ⟨r, hr⟩ := replacement_ok t (h _ hmem hnull)
          rw [hr]
          exact ih _ h

/-- A text is resolved by replacing its tokens, if it has any. -/
theorem resolveText_run (text : String) (s : σ) :
    (resolveText text).run.under l s =
      (((substitute [] text.toList (Token.extract text.toList)).run.under l s).1.map String.ofList,
        ((substitute [] text.toList (Token.extract text.toList)).run.under l s).2) := by
  rw [resolveText]
  split
  next hnone =>
    rw [List.isEmpty_iff.mp hnone]
    show (Except.ok text, s) = (Except.ok (String.ofList text.toList), s)
    rw [String.ofList_toList]
  next => exact Resolution.under_run_bind_pure l _ String.ofList s

/-- A field that is a text is its text, resolved; when it is empty it has no references. -/
theorem resolve_text_run (text : String) (s : σ) :
    (resolve (.text text)).run.under l s =
      (((resolveText text).run.under l s).1.map .text, ((resolveText text).run.under l s).2) := by
  by_cases hempty : text = ""
  · subst hempty
    rfl
  · have hvacant : (Value.text text).isVacant = false := by
      simpa [Value.isVacant] using hempty
    unfold resolve
    rw [if_neg (by rw [hvacant]; exact Bool.false_ne_true)]
    exact Resolution.under_run_bind_pure l _ Value.text s

theorem resolveText_ok {text : String} {s : σ}
    (h : AllWritable ((lookUps l [] (Token.extract text.toList) s).map Prod.snd)) :
    ∃ r, ((resolveText text).run.under l s).1 = .ok r := by
  obtain ⟨cs, hcs⟩ := substitute_ok text.toList h
  rw [resolveText_run, hcs]
  exact ⟨_, rfl⟩

/-- Texts whose references come to writable values are resolved, one for one, and where there is no
text there is none. -/
theorem resolveAll_ok {texts : List (Option String)} {s : σ} (h : AllWritable (met l texts s)) :
    ∃ rs : List (Option String),
      ((resolveAll (texts.map Value.ofText?)).run.under l s).1 = .ok (rs.map Value.ofText?) ∧
        rs.length = texts.length ∧ ∀ k : Nat, texts[k]? = some none ↔ rs[k]? = some none := by
  induction texts generalizing s with
  | nil => exact ⟨[], rfl, rfl, fun _ => Iff.rfl⟩
  | cons text texts ih =>
      -- The first text comes to a text again, and the others go on from there.
      have first : ∃ r s', (resolve (Value.ofText? text)).run.under l s = (.ok (Value.ofText? r), s')
          ∧ AllWritable (met l texts s') ∧ (text = none ↔ r = none) := by
        cases text with
        | none => exact ⟨none, s, rfl, h, Iff.rfl⟩
        | some text =>
            obtain ⟨here, behind⟩ := List.forall_mem_append.mp h
            obtain ⟨r, hr⟩ := resolveText_ok here
            refine ⟨some r, ((resolveText text).run.under l s).2, ?_, behind, by simp⟩
            rw [Value.ofText?, resolve_text_run, hr]
            rfl
      obtain ⟨r, s', hfirst, behind, hnone⟩ := first
      obtain ⟨rs, hrest, hlength, hnull⟩ := ih behind
      refine ⟨r :: rs, ?_, congrArg (· + 1) hlength, ?_⟩
      · rw [List.map_cons, resolveAll, Resolution.under_run_bind, hfirst]
        dsimp only
        rw [Resolution.under_run_bind_pure, hrest]
        rfl
      · intro k
        cases k with
        | zero => simpa using hnone
        | succ k => simpa using hnull k

end Loading

end Template

/-! ## What is heard while other work goes on -/

namespace Resolution

variable {α β : Type} {found : String → String → Option Value → Prop} {base : Value}

theorem Yields.of_bind {r : Resolution α} {f : α → Resolution β} {b : β}
    (h : (r.bind f).Yields found base b) :
    ∃ a, r.Yields found base a ∧ (f a).Yields found base b := by
  induction r with
  | done a => exact ⟨a, .done, h⟩
  | look next ih =>
      cases h with
      | look h =>
          obtain ⟨a, ha, hb⟩ := ih base h
          exact ⟨a, .look ha, hb⟩
  | fetch entity id next ih =>
      cases h with
      | @fetch _ _ _ record _ hrecord h =>
          obtain ⟨a, ha, hb⟩ := ih record h
          exact ⟨a, .fetch hrecord ha, hb⟩

/-- Work comes to its result again when it is given the answers that it heard. -/
theorem Yields.under_replay {r : Resolution α} {a : α} {answers : List (Option Value)}
    (h : r.heard.Yields found base (a, answers)) :
    (r.under (.replay base) answers).1 = a := by
  induction r generalizing answers with
  | done b =>
      cases h
      rfl
  | look next ih =>
      cases h with
      | look h => exact ih base h
  | fetch entity id next ih =>
      cases h with
      | @fetch _ _ _ record _ _ h =>
          obtain ⟨⟨b, heard⟩, hheard, hdone⟩ := Yields.of_bind h
          cases hdone
          exact ih record hheard

end Resolution

/-- Work of a session on a resolution that is followed by another one. -/
theorem Work.resolve_bind {α β : Type} (place : Option Nat) (scope : Nat) (r : Resolution α)
    (f : α → Resolution β) :
    Work.resolve place scope (r.bind f) =
      (Work.resolve place scope r).bind fun a => Work.resolve place scope (f a) := by
  induction r with
  | done a => rfl
  | look next ih =>
      refine congrArg Task.look (funext fun s => ?_)
      exact ih _
  | fetch entity id next ih =>
      show Work.resolve place scope (.fetch entity id fun v => (next v).bind f) = _
      rw [Work.resolve_fetch, Work.resolve_fetch]
      refine congrArg (Task.fetch (some scope) entity id) (funext fun reply => ?_)
      rcases reply with fault | _ | record
      · exact ih none
      · exact ih none
      · refine congrArg Task.look (funext fun s => ?_)
        exact ih _

namespace Template

/-- **Texts are always resolved.**  Whatever a store answers, a record, something else or a fault,
and another time something different, and whatever other work goes on meanwhile: the work on a list
of texts ends.  When the values that its references came to are writable, where they are values at
all, it ends with as many texts, and there is no text where there was none.  The answers that it has
heard tell which values these are, and to hear them changes nothing in the work. -/
theorem resolveAll_ends (supply : Supply) (drift : Drift) {n number scope : Nat}
    {place : Option Nat} {base : Value} {s : Shared Nat Session} (coherent : supply.Coherent s)
    (shows : s.outer.shelf.Shows base place) (texts : List (Option String)) :
    let work := (resolveAll (texts.map Value.ofText?)).run
    supply.Ends drift n number (fun _ => True)
        (fun _ (result, answers) => (∀ v ∈ met (.replay base) texts answers,
          v.isNull = false → v.Writable) →
            ∃ rs : List (Option String), result = .ok (rs.map Value.ofText?) ∧
              rs.length = texts.length ∧ ∀ k : Nat, texts[k]? = some none ↔ rs[k]? = some none)
        s.outer.shelf ((Work.resolve place scope work.heard).run supply.supplier number s) ∧
      ((Work.resolve place scope work.heard).bind fun heard => .done heard.1) =
        Work.resolve place scope work := by
  intro work
  constructor
  · refine (Supply.resolve_ends work.heard coherent shows fun _ _ => trivial).mono
      (fun _ h => h) ?_
    rintro t ⟨result, answers⟩ ⟨-, yields⟩ writable
    obtain ⟨rs, hrs, rest⟩ := resolveAll_ok writable
    exact ⟨rs, yields.under_replay.symm.trans hrs, rest⟩
  · calc ((Work.resolve place scope work.heard).bind fun heard => .done heard.1)
        = Work.resolve place scope (work.heard.bind fun heard => .done heard.1) :=
          (Work.resolve_bind place scope work.heard fun heard => .done heard.1).symm
      _ = Work.resolve place scope work := by rw [Resolution.heard_bind_fst]

/-- A contact with an owner, a manager whose account is gone, and a parent that is no record. -/
def letterContact : Value :=
  .map [(Lookup.idKey "owner", .text "a1"), (Lookup.entityKey "owner", .text "account"),
    (Lookup.idKey "manager", .text "a2"), (Lookup.entityKey "manager", .text "account"),
    (Lookup.idKey "parent", .text "a3"), (Lookup.entityKey "parent", .text "account"),
    ("since", .text "2025-06-02T01:02:03Z")]

def letterSession : Shared Nat Session :=
  { outer :=
      { store := { fixed := [("account:a1", .map [("name", .text "Acme")]),
          ("account:a3", .text "no record")] }
        shelf := ⟨[letterContact]⟩ } }

/-- A hop that finds its record, one that fails, one that finds no record, and no text; then methods
that nobody has, that cannot use their arguments, and that are there. -/
def letter : List (Option String) :=
  [some "{owner.name}, {manager.name}, {parent.name}.trim()", none,
    some "{owner.name}.fold() {since}.getMonth(1) {since}.getMonth()"]

theorem letter_resolved :
    ∃ answers, ∃ rs : List (Option String),
      (∀ v ∈ met (.replay letterContact) letter answers, v.isNull = false → v.Writable) ∧
        ((Work.resolve (some 0) 0 (resolveAll (letter.map Value.ofText?)).run.heard).run
          (Session.supplier 5 (.int 1)) 0 letterSession).2.result? =
            some (.ok (rs.map Value.ofText?), answers) ∧
        rs.length = 3 ∧ rs[1]? = some none := by
  have coherent : (Supply.anything 5 (.int 1)).Coherent letterSession :=
    .of_empty (fun _ _ => trivial) fun _ => rfl
  have shows : letterSession.outer.shelf.Shows letterContact (some 0) := rfl
  obtain ⟨ends, -⟩ := @resolveAll_ends (.anything 5 (.int 1)) .still 0 0 0 _ _ _ coherent shows letter
  have hears : (((Work.resolve (some 0) 0 (resolveAll (letter.map Value.ofText?)).run.heard).run
      (Session.supplier 5 (.int 1)) 0 letterSession).2.result?.any
        fun heard : Except Fault (List Value) × List (Option Value) =>
          decide (∀ v ∈ met (.replay letterContact) letter heard.2,
            v.isNull = false → v.Writable)) = true := by
    decide +kernel
  obtain ⟨⟨result, answers⟩, hresult, writable⟩ := (Option.any_eq_true _ _).mp hears
  obtain ⟨rs, rfl, hlength, hnull⟩ := ends.at_result hresult (of_decide_eq_true writable)
  exact ⟨answers, rs, of_decide_eq_true writable, hresult, hlength, (hnull 1).mp rfl⟩

end Template

end Toolbar
