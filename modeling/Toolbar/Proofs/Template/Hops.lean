/-
# `Toolbar.Proofs.Template.Hops` — which records the references of a text ask for

A reference asks for the records on its chain of lookups, one hop after the other, up to the first
hop that is broken: one without a target, or whose record has no fields.  A reference to a key asks
for nothing.  When a path is met again in the same text it is not followed again, so of the records
that its references ask for it is only known which they are, not in what order and how often.

    Hop                a hop of a chain, with all hops before it sound
    Takes              a hop of one of the references of some texts
    mem_asks_…         what is asked for, when the store itself answers
-/
import Toolbar.Proofs.Template.Total

namespace Toolbar

/-- A hop of a chain of lookups that begins at a record: the first one, or one behind it when the
record that it leads to has fields. -/
inductive Hop (store : String → String → Option Value) :
    Value → List String → String → String → Prop
  | here {record : Value} {name : String} {names : List String} {entity id : String} :
      Lookup.target? record name = some (entity, id) → Hop store record (name :: names) entity id
  | beyond {record : Value} {name : String} {names : List String} {entity id : String}
      {fields : Fields} {e i : String} : Lookup.target? record name = some (entity, id) →
      store entity id = some (.map fields) → Hop store (.map fields) names e i →
      Hop store record (name :: names) e i

variable {base : Value} {store : String → String → Option Value} {e i : String}

/-- Only a record with fields has a target. -/
theorem Lookup.fields_of_target? {record : Value} {name : String} {target : String × String}
    (h : Lookup.target? record name = some target) : ∃ fields, record = .map fields := by
  cases record with
  | map fields => exact ⟨fields, rfl⟩
  | _ => cases h

theorem Hop.fields {record : Value} {names : List String} (h : Hop store record names e i) :
    ∃ fields, record = .map fields := by
  cases h with
  | here htarget => exact Lookup.fields_of_target? htarget
  | beyond htarget _ _ => exact Lookup.fields_of_target? htarget

namespace Resolution

variable {α β : Type}

theorem asks_bind (r : Resolution α) (f : α → Resolution β) :
    (r.bind f).asks base store =
      r.asks base store ++ (f (r.direct base store)).asks base store := by
  induction r with
  | done a => rfl
  | look next ih => exact ih base
  | fetch entity id next ih => exact congrArg ((entity, id) :: ·) (ih (store entity id))

/-- Whoever follows a chain asks for its hops. -/
theorem mem_asks_follow {record : Value} {names : List String} :
    (e, i) ∈ (follow record names).asks base store ↔ Hop store record names e i := by
  induction names generalizing record with
  | nil =>
      constructor
      · intro h
        cases h
      · intro h
        cases h
  | cons name names ih =>
      rw [follow]
      cases htarget : Lookup.target? record name with
      | none =>
          constructor
          · intro h
            cases h
          · intro h
            cases h with
            | here h => rw [htarget] at h; cases h
            | beyond h _ _ => rw [htarget] at h; cases h
      | some target =>
          obtain ⟨entity, id⟩ := target
          dsimp only
          rw [asks, List.mem_cons]
          constructor
          · rintro (h | h)
            · cases h
              exact .here htarget
            · split at h
              next fields hfields => exact .beyond htarget hfields (ih.mp h)
              next => cases h
          · intro h
            cases h with
            | here h =>
                rw [htarget] at h
                cases h
                exact .inl rfl
            | @beyond _ _ _ _ _ fields _ _ h hfields hop =>
                rw [htarget] at h
                cases h
                rw [hfields]
                exact .inr (ih.mpr hop)

end Resolution

namespace Template

open Resolution

/-- Whoever looks up a path asks for the hops of its chain, unless the path names a key. -/
theorem mem_asks_pathValue {path : List Char} :
    (e, i) ∈ (pathValue path).asks base store ↔ (Path.ofChars path).isId = false ∧
      Hop store base ((Path.ofChars path).lookups.map String.ofList) e i := by
  rw [pathValue, asks]
  split
  next fields =>
    split
    next hnone =>
      constructor
      · intro h
        cases h
      · rintro ⟨-, hop⟩
        rw [hnone] at hop
        cases hop
    next first rest hsome =>
      by_cases hid : (Path.ofChars path).isId = true
      · rw [if_pos hid, hid]
        constructor
        · intro h
          cases h
        · rintro ⟨h, -⟩
          cases h
      · rw [if_neg hid, asks_bind, List.mem_append, mem_asks_follow]
        constructor
        · rintro (hop | h)
          · exact ⟨Bool.eq_false_iff.mpr hid, hop⟩
          · cases h
        · rintro ⟨-, hop⟩
          exact .inl hop
  next hno =>
    constructor
    · intro h
      cases h
    · rintro ⟨-, hop⟩
      obtain ⟨fields, rfl⟩ := hop.fields
      exact absurd rfl (hno fields)

/-! ## The references of texts -/

/-- After the first token is looked up, the others are replaced in some text, or there is a
fault. -/
theorem substitute_cons_cases {σ : Type} (l : Loader σ) (known : List (List Char × Value))
    (text : List Char) (t : Token) (ts : List Token) (s : σ) :
    (∃ f, (substitute known text (t :: ts)).run.under l s = (.error f, (lookUp l known t s).2)) ∨
      ∃ text', (substitute known text (t :: ts)).run.under l s =
        (substitute ((t.path, (lookUp l known t s).1) :: known) text' ts).run.under l
          (lookUp l known t s).2 := by
  rw [substitute_cons]
  cases (lookUp l known t s).1.isNull with
  | true => exact .inr ⟨text, rfl⟩
  | false =>
      cases replacement t (lookUp l known t s).1 with
      | error f => exact .inl ⟨f, rfl⟩
      | ok r => exact .inr ⟨_, rfl⟩

section Tracing

variable {known : List (List Char × Value)} {asked : List (String × String)}
  {entry : String × String}

theorem mem_trace {α : Type} (r : Resolution α) (h : entry ∈ asked) :
    entry ∈ (r.under (.trace base store) asked).2 := by
  rw [under_trace]
  exact List.mem_append_left _ h

theorem mem_lookUp_trace {t : Token} :
    entry ∈ (lookUp (.trace base store) known t asked).2 ↔
      entry ∈ asked ∨ known.lookup t.path = none ∧ entry ∈ (pathValue t.path).asks base store := by
  unfold lookUp
  cases known.lookup t.path with
  | some v => simp
  | none => simp [under_trace]

/-- What is asked for while tokens are replaced belongs to their paths. -/
theorem asks_of_mem_substitute {text : List Char} {ts : List Token}
    (h : entry ∈ ((substitute known text ts).run.under (.trace base store) asked).2) :
    entry ∈ asked ∨ ∃ t ∈ ts, entry ∈ (pathValue t.path).asks base store := by
  induction ts generalizing known asked text with
  | nil => exact .inl h
  | cons t ts ih =>
      have here : entry ∈ (lookUp (.trace base store) known t asked).2 →
          entry ∈ asked ∨ ∃ t' ∈ t :: ts, entry ∈ (pathValue t'.path).asks base store := by
        intro h
        exact (mem_lookUp_trace.mp h).imp_right fun h => ⟨t, List.mem_cons_self, h.2⟩
      rcases substitute_cons_cases (.trace base store) known text t ts asked with
        ⟨f, hrun⟩ | ⟨text', hrun⟩
      · rw [hrun] at h
        exact here h
      · rw [hrun] at h
        rcases ih h with h | ⟨t', ht', h⟩
        · exact here h
        · exact .inr ⟨t', List.mem_cons_of_mem t ht', h⟩

/-- When all tokens are replaced, all that belongs to their paths has been asked for; for the paths
that were known before it is so from before. -/
theorem mem_substitute_of_asks {text : List Char} {ts : List Token} {cs : List Char}
    (hdone : ((substitute known text ts).run.under (.trace base store) asked).1 = .ok cs)
    (before : ∀ path v, known.lookup path = some v →
      ∀ entry ∈ (pathValue path).asks base store, entry ∈ asked)
    {t : Token} (ht : t ∈ ts) (hentry : entry ∈ (pathValue t.path).asks base store) :
    entry ∈ ((substitute known text ts).run.under (.trace base store) asked).2 := by
  induction ts generalizing known asked text with
  | nil => cases ht
  | cons t' ts ih =>
      -- What belongs to the first path was asked for before, or is now.
      have first : ∀ entry ∈ (pathValue t'.path).asks base store,
          entry ∈ (lookUp (.trace base store) known t' asked).2 := by
        intro entry hentry
        refine mem_lookUp_trace.mpr ?_
        cases hknown : known.lookup t'.path with
        | some v => exact .inl (before t'.path v hknown entry hentry)
        | none => exact .inr ⟨rfl, hentry⟩
      rcases substitute_cons_cases (.trace base store) known text t' ts asked with
        ⟨f, hrun⟩ | ⟨text', hrun⟩
      · rw [hrun] at hdone
        cases hdone
      · rw [hrun] at hdone ⊢
        rcases List.mem_cons.mp ht with rfl | ht
        · exact mem_trace _ (first entry hentry)
        · refine ih hdone ?_ ht
          intro path v hknown entry hentry
          by_cases hpath : path = t'.path
          · subst hpath
            exact first entry hentry
          · have hother : (path == t'.path) = false := beq_eq_false_iff_ne.mpr hpath
            rw [List.lookup_cons, hother] at hknown
            exact mem_lookUp_trace.mpr (.inl (before path v hknown entry hentry))

/-- What is asked for while a field is resolved belongs to the paths of its text. -/
theorem asks_of_mem_resolve {text : Option String}
    (h : entry ∈ ((resolve (Value.ofText? text)).run.under (.trace base store) asked).2) :
    entry ∈ asked ∨ ∃ s, text = some s ∧
      ∃ t ∈ Token.extract s.toList, entry ∈ (pathValue t.path).asks base store := by
  cases text with
  | none => exact .inl h
  | some s =>
      rw [Value.ofText?, resolve_text_run, resolveText_run] at h
      exact (asks_of_mem_substitute h).imp_right fun h => ⟨s, rfl, h⟩

theorem mem_resolve_of_asks {s : String} {v : Value}
    (hdone : ((resolve (.text s)).run.under (.trace base store) asked).1 = .ok v)
    {t : Token} (ht : t ∈ Token.extract s.toList)
    (hentry : entry ∈ (pathValue t.path).asks base store) :
    entry ∈ ((resolve (.text s)).run.under (.trace base store) asked).2 := by
  rw [resolve_text_run, resolveText_run] at hdone ⊢
  cases hcs : ((substitute [] s.toList (Token.extract s.toList)).run.under
      (.trace base store) asked).1 with
  | error f =>
      rw [hcs] at hdone
      cases hdone
  | ok cs => exact mem_substitute_of_asks hcs (fun _ _ h => nomatch h) ht hentry

/-- After the first text is resolved the others are, or there is a fault. -/
theorem resolveAll_cons_cases {σ : Type} (l : Loader σ) (v : Value) (vs : List Value) (s : σ) :
    (∃ f, (resolveAll (v :: vs)).run.under l s = (.error f, ((resolve v).run.under l s).2)) ∨
      ∃ r, ((resolve v).run.under l s).1 = .ok r ∧
        (resolveAll (v :: vs)).run.under l s =
          (((resolveAll vs).run.under l ((resolve v).run.under l s).2).1.map (r :: ·),
            ((resolveAll vs).run.under l ((resolve v).run.under l s).2).2) := by
  rw [resolveAll, under_run_bind]
  rcases (resolve v).run.under l s with ⟨f | r, s'⟩
  · exact .inl ⟨f, rfl⟩
  · exact .inr ⟨r, rfl, under_run_bind_pure l _ (r :: ·) s'⟩

theorem asks_of_mem_resolveAll {texts : List (Option String)}
    (h : entry ∈ ((resolveAll (texts.map Value.ofText?)).run.under (.trace base store) asked).2) :
    entry ∈ asked ∨ ∃ s, some s ∈ texts ∧
      ∃ t ∈ Token.extract s.toList, entry ∈ (pathValue t.path).asks base store := by
  induction texts generalizing asked with
  | nil => exact .inl h
  | cons text texts ih =>
      have here : entry ∈ ((resolve (Value.ofText? text)).run.under (.trace base store) asked).2 →
          entry ∈ asked ∨ ∃ s, some s ∈ text :: texts ∧
            ∃ t ∈ Token.extract s.toList, entry ∈ (pathValue t.path).asks base store := by
        intro h
        refine (asks_of_mem_resolve h).imp_right ?_
        rintro ⟨s, rfl, hs⟩
        exact ⟨s, List.mem_cons_self, hs⟩
      rcases resolveAll_cons_cases (.trace base store) (Value.ofText? text)
        (texts.map Value.ofText?) asked with ⟨f, hrun⟩ | ⟨r, -, hrun⟩
      · rw [List.map_cons, hrun] at h
        exact here h
      · rw [List.map_cons, hrun] at h
        rcases ih h with h | ⟨s, hs, h⟩
        · exact here h
        · exact .inr ⟨s, List.mem_cons_of_mem _ hs, h⟩

theorem mem_resolveAll_of_asks {texts : List (Option String)} {rs : List Value}
    (hdone : ((resolveAll (texts.map Value.ofText?)).run.under (.trace base store) asked).1 = .ok rs)
    {s : String} (hs : some s ∈ texts) {t : Token} (ht : t ∈ Token.extract s.toList)
    (hentry : entry ∈ (pathValue t.path).asks base store) :
    entry ∈ ((resolveAll (texts.map Value.ofText?)).run.under (.trace base store) asked).2 := by
  induction texts generalizing asked rs with
  | nil => cases hs
  | cons text texts ih =>
      rcases resolveAll_cons_cases (.trace base store) (Value.ofText? text)
        (texts.map Value.ofText?) asked with ⟨f, hrun⟩ | ⟨r, hfirst, hrun⟩
      · rw [List.map_cons, hrun] at hdone
        cases hdone
      · rw [List.map_cons, hrun] at hdone ⊢
        rcases List.mem_cons.mp hs with rfl | hs
        · exact mem_trace _ (mem_resolve_of_asks hfirst ht hentry)
        · cases hrest : ((resolveAll (texts.map Value.ofText?)).run.under (.trace base store)
              ((resolve (Value.ofText? text)).run.under (.trace base store) asked).2).1 with
          | error f =>
              rw [hrest] at hdone
              cases hdone
          | ok rs => exact ih hrest hs

end Tracing

/-! ## Hops that are taken -/

/-- A hop of one of the references of some texts; a reference to a key has none. -/
def Takes (store : String → String → Option Value) (base : Value) (texts : List (Option String))
    (e i : String) : Prop :=
  ∃ s, some s ∈ texts ∧ ∃ t ∈ Token.extract s.toList, (Path.ofChars t.path).isId = false ∧
    Hop store base ((Path.ofChars t.path).lookups.map String.ofList) e i

theorem takes_of_mem_asks {texts : List (Option String)}
    (h : (e, i) ∈ (resolveAll (texts.map Value.ofText?)).run.asks base store) :
    Takes store base texts e i := by
  have traced : (e, i) ∈ ((resolveAll (texts.map Value.ofText?)).run.under
      (.trace base store) []).2 := by
    rw [under_trace]
    exact h
  rcases asks_of_mem_resolveAll traced with h | ⟨s, hs, t, ht, h⟩
  · cases h
  · exact ⟨s, hs, t, ht, mem_asks_pathValue.mp h⟩

/-- Where the texts are resolved, all their hops have been taken. -/
theorem mem_asks_of_takes {texts : List (Option String)} {rs : List Value}
    (hdone : (resolveAll (texts.map Value.ofText?)).run.direct base store = .ok rs)
    (h : Takes store base texts e i) :
    (e, i) ∈ (resolveAll (texts.map Value.ofText?)).run.asks base store := by
  obtain ⟨s, hs, t, ht, hop⟩ := h
  have traced : ((resolveAll (texts.map Value.ofText?)).run.under (.trace base store) []).1 =
      .ok rs := by
    rw [under_trace]
    exact hdone
  have hmem := mem_resolveAll_of_asks traced hs ht (mem_asks_pathValue.mpr hop)
  rw [under_trace] at hmem
  exact hmem

end Template

end Toolbar
