/-
# `Toolbar.Proofs.Template.Positional` — each token replaced where it stands

References are replaced one after the other, each at every place where its text is found in the text
so far, which holds the replacements of earlier ones.  When the tokens of a text can be told apart
and no replacement holds an opening brace, nothing but the tokens themselves is ever hit: the text
comes out as if each token had been replaced where it stands.

    Separated             no brace opens inside a token, and none is the beginning of another
    replaceAll_weaveWith  where a token is replaced in a text that is partly replaced already
    lookUps               the values of paths, each looked up when it is first met

What records are fetched, and when, is up to the loader.
-/
import Toolbar.Proofs.Record.Loader
import Toolbar.Proofs.Template.Scan
import Toolbar.Proofs.Text.Replace
import Toolbar.Template.Resolve

namespace Toolbar

open Text Token

/-! ## Texts that are partly replaced -/

/-- A literal, and for tokens their texts, with the literals behind them. -/
def weaveWith (text : Token → List Char) (first : List Char) (pieces : List (Token × List Char)) :
    List Char :=
  first ++ pieces.flatMap fun (t, literal) => text t ++ literal

theorem weaveWith_cons (text : Token → List Char) (first next : List Char) (t : Token)
    (pieces : List (Token × List Char)) :
    weaveWith text first ((t, next) :: pieces) =
      first ++ (text t ++ weaveWith text next pieces) := by
  simp [weaveWith]

theorem weaveWith_congr {text text' : Token → List Char} (first : List Char)
    {pieces : List (Token × List Char)} (h : ∀ t ∈ pieces.map Prod.fst, text t = text' t) :
    weaveWith text first pieces = weaveWith text' first pieces := by
  induction pieces generalizing first with
  | nil => rfl
  | cons piece pieces ih =>
      obtain ⟨t, next⟩ := piece
      rw [List.map_cons, List.forall_mem_cons] at h
      rw [weaveWith_cons, weaveWith_cons, h.1, ih next h.2]

/-- Tokens that can be told apart: no brace opens inside one, and none is the beginning of
another. -/
structure Separated (tokens : List Token) : Prop where
  path : ∀ t ∈ tokens, '\x7b' ∉ t.path
  args : ∀ t ∈ tokens, ∀ as ∈ t.args, '\x7b' ∉ as
  begins : ∀ t ∈ tokens, ∀ t' ∈ tokens, t.full <+: t'.full → t.full = t'.full

namespace Token

/-- In a token of the grammar, braces that open behind the first one are in its path or
arguments. -/
theorem no_brace_inside {t : Token} (h : Grammatical t) (hpath : '\x7b' ∉ t.path)
    (hargs : ∀ as ∈ t.args, '\x7b' ∉ as) : '\x7b' ∉ t.path ++ '\x7d' :: t.suffix := by
  have no_brace : ∀ {m : List Char}, IsName m → '\x7b' ∉ m :=
    fun hm hmem => absurd (isNamePart_of_isName hm _ hmem) (by decide)
  have hsuffix : '\x7b' ∉ t.suffix := by
    have hs := h.suffix
    generalize t.suffix = s at hs
    generalize hm : t.method = m at hs
    generalize has : t.args = as at hs
    cases hs with
    | none => exact List.not_mem_nil
    | name hname => simp [no_brace hname]
    | call hname _ _ => simp [no_brace hname, hargs _ has]
  simp [hpath, hsuffix]

/-- A token can start at a brace behind which there is a closing one, but not at once. -/
theorem starts_of_closing {tail : List Char} (hclosing : '\x7d' ∈ tail)
    (hhead : tail.head? ≠ some '\x7d') : Starts ('\x7b' :: tail) := by
  obtain ⟨path, rest, rfl, hpath⟩ := List.eq_append_cons_of_mem hclosing
  refine starts_iff.mpr ⟨path, rest, fun hnil => ?_, hpath, rfl⟩
  rw [hnil] at hhead
  exact hhead rfl

/-- A brace that opens in a literal before a token is closed at once. -/
theorem Barren.closes {literal after w : List Char} {t : Token} {k : Nat}
    (h : Barren literal (t.full ++ w)) (hk : literal.drop k = '\x7b' :: after) :
    ∃ more, after = '\x7d' :: more := by
  have hlt : k < literal.length := by
    refine Nat.lt_of_not_le fun hle => ?_
    rw [List.drop_eq_nil_of_le hle] at hk
    cases hk
  have hno := h k hlt
  rw [List.drop_append_of_le_length (Nat.le_of_lt hlt), hk, List.cons_append] at hno
  have hclosing : '\x7d' ∈ after ++ (t.full ++ w) := by simp [full]
  refine Classical.byContradiction fun hopen => hno (starts_of_closing hclosing ?_)
  intro hhead
  cases after with
  | nil => cases hhead
  | cons c more =>
      cases hhead
      exact hopen ⟨more, rfl⟩

/-! ## Where a token can stand -/

variable {t u : Token}

/-- In a literal before a token no token stands, whatever else comes to stand behind it. -/
theorem Barren.no_token {literal w : List Char} (h : Barren literal (t.full ++ w))
    (hu : Grammatical u) (w' : List Char) :
    ∀ k < literal.length, ¬ u.full <+: (literal ++ w').drop k := by
  intro k hk hbegins
  rw [List.drop_append_of_le_length (Nat.le_of_lt hk)] at hbegins
  obtain ⟨c, path, hpath⟩ := List.exists_cons_of_ne_nil hu.path.1
  cases hdrop : literal.drop k with
  | nil => exact absurd (List.drop_eq_nil_iff.mp hdrop) (Nat.not_le_of_lt hk)
  | cons a after =>
      rw [hdrop, hu.full, List.cons_append, List.cons_append, List.cons_prefix_cons] at hbegins
      obtain ⟨rfl, htail⟩ := hbegins
      obtain ⟨more, rfl⟩ := h.closes hdrop
      -- The path of a token is not empty.
      rw [hpath, List.cons_append, List.cons_append, List.cons_prefix_cons] at htail
      exact hu.path.2 (hpath ▸ htail.1 ▸ List.mem_cons_self)

/-- Where no brace opens, no token stands. -/
theorem no_token_of_no_brace {xs : List Char} (h : '\x7b' ∉ xs) (w : List Char) :
    ∀ k < xs.length, ¬ u.full <+: (xs ++ w).drop k := by
  intro k hk hbegins
  rw [List.drop_append_of_le_length (Nat.le_of_lt hk), List.drop_eq_getElem_cons hk,
    List.cons_append] at hbegins
  have hhead := (List.cons_prefix_cons.mp hbegins).1
  exact h (hhead ▸ List.getElem_mem hk)

/-- Where a token stands, no other one does that can be told from it. -/
theorem no_token_in_token (hne : t.full ≠ u.full)
    (hinside : '\x7b' ∉ t.path ++ '\x7d' :: t.suffix)
    (hbefore : t.full <+: u.full → t.full = u.full)
    (hbehind : u.full <+: t.full → u.full = t.full) (w : List Char) :
    ∀ k < t.full.length, ¬ u.full <+: (t.full ++ w).drop k := by
  intro k hk hbegins
  cases k with
  | zero =>
      rcases List.prefix_or_prefix_of_prefix hbegins (List.prefix_append t.full w) with h | h
      · exact hne (hbehind h).symm
      · exact hne (hbefore h)
  | succ k => exact no_token_of_no_brace hinside w k (Nat.lt_of_succ_lt_succ hk) hbegins

end Token

/-! ## One replacement -/

theorem Separated.inside {tokens : List Token} (h : Separated tokens) {t : Token} (ht : t ∈ tokens)
    (hgrammatical : Grammatical t) : '\x7b' ∉ t.path ++ '\x7d' :: t.suffix :=
  no_brace_inside hgrammatical (h.path t ht) (h.args t ht)

/-- A token is replaced at the places where it still stands, and nowhere else. -/
theorem replaceAll_weaveWith {tokens : List Token} (separated : Separated tokens) {u : Token}
    (hu : u ∈ tokens) (hgrammatical : Grammatical u) (new : List Char) {text : Token → List Char}
    (htext : ∀ t ∈ tokens, text t = t.full ∨ '\x7b' ∉ text t) {first : List Char}
    {pieces : List (Token × List Char)} (scans : Scans first pieces)
    (hpieces : ∀ t ∈ pieces.map Prod.fst, t ∈ tokens) :
    replaceAll u.full new (weaveWith text first pieces) =
      weaveWith (fun t => if text t = u.full then new else text t) first pieces := by
  have hne : u.full ≠ [] := List.cons_ne_nil _ _
  induction scans with
  | @last first barren =>
      have hno : ∀ k < first.length, ¬ u.full <+: (first ++ []).drop k :=
        fun k hk hbegins => barren k hk ⟨u, hgrammatical, hbegins⟩
      show replaceAll u.full new (first ++ []) = first ++ []
      rw [replaceAll_append hne hno, replaceAll_nil hne]
  | @token first next t pieces barren longest _ ih =>
      rw [List.map_cons, List.forall_mem_cons] at hpieces
      obtain ⟨ht, hpieces⟩ := hpieces
      rw [weaveWith_cons, weaveWith_cons, replaceAll_append hne (barren.no_token hgrammatical _)]
      congr 1
      by_cases hstands : text t = u.full
      · rw [if_pos hstands, hstands, replaceAll_append_self hne, ih hpieces]
      · rw [if_neg hstands, replaceAll_append hne, ih hpieces]
        rcases htext t ht with hkept | hreplaced
        · rw [hkept] at hstands ⊢
          exact no_token_in_token hstands (separated.inside ht longest.grammatical)
            (separated.begins t ht u hu) (separated.begins u hu t ht) _
        · exact no_token_of_no_brace hreplaced _

namespace Template

/-! ## All replacements -/

section Loading

variable {σ : Type} (l : Loader σ)

/-- The value of the path of a token, looked up unless it is known, and the loader's state then. -/
def lookUp (known : List (List Char × Value)) (t : Token) (s : σ) : Value × σ :=
  match known.lookup t.path with
  | some v => (v, s)
  | none => (pathValue t.path).under l s

/-- The values of the paths of tokens, each looked up when it is first met. -/
def lookUps (known : List (List Char × Value)) : List Token → σ → List (List Char × Value)
  | [], _ => known
  | t :: ts, s => lookUps ((t.path, (lookUp l known t s).1) :: known) ts (lookUp l known t s).2

/-- The value of a path among those of the tokens of a text. -/
def valueIn (text : String) (s : σ) (path : List Char) : Value :=
  ((lookUps l [] (Token.extract text.toList) s).lookup path).getD .null

/-- The text of a token whose path has a value: its replacement, or its own text when the value is
null. -/
def shown (v : Value) (t : Token) : List Char :=
  match v.isNull, replacement t v with
  | false, .ok r => r.toList
  | _, _ => t.full

variable {l} {known : List (List Char × Value)} {path : List Char} {v : Value}

/-- A value that is known stays as it is. -/
theorem lookup_lookUps (ts : List Token) (s : σ) (h : known.lookup path = some v) :
    (lookUps l known ts s).lookup path = some v := by
  induction ts generalizing known s with
  | nil => exact h
  | cons t ts ih =>
      refine ih _ ?_
      by_cases hpath : path = t.path
      · subst hpath
        simp [lookUp, h]
      · have hother : (path == t.path) = false := beq_eq_false_iff_ne.mpr hpath
        simp [List.lookup_cons, hother, h]

/-- How the texts of tokens come out of one replacement after the other. -/
theorem substitute_cons (text : List Char) (t : Token) (ts : List Token) (s : σ) :
    (substitute known text (t :: ts)).run.under l s =
      match (lookUp l known t s).1.isNull, replacement t (lookUp l known t s).1 with
      | true, _ => (substitute ((t.path, (lookUp l known t s).1) :: known) text ts).run.under l
          (lookUp l known t s).2
      | false, .ok r => (substitute ((t.path, (lookUp l known t s).1) :: known)
          (replaceAll t.full r.toList text) ts).run.under l (lookUp l known t s).2
      | false, .error f => (.error f, (lookUp l known t s).2) := by
  have goes : ∀ (v : Value) (s : σ),
      (if v.isNull then substitute ((t.path, v) :: known) text ts
        else substitute.liftExcept (replacement t v) >>= fun r =>
          substitute ((t.path, v) :: known) (replaceAll t.full r.toList text) ts).run.under l s =
        match v.isNull, replacement t v with
        | true, _ => (substitute ((t.path, v) :: known) text ts).run.under l s
        | false, .ok r => (substitute ((t.path, v) :: known)
            (replaceAll t.full r.toList text) ts).run.under l s
        | false, .error f => (.error f, s) := by
    intro v s
    cases v.isNull with
    | true => rfl
    | false =>
        rw [if_neg Bool.false_ne_true, Resolution.under_run_bind]
        cases replacement t v <;> rfl
  rw [substitute]
  unfold lookUp
  cases known.lookup t.path with
  | some v => exact goes v s
  | none =>
      show Resolution.under l (ExceptT.lift (pathValue t.path) >>= _).run s = _
      rw [Resolution.under_run_bind, Resolution.under_run_lift]
      exact goes _ _

end Loading

section Replacing

variable (value : List Char → Value)

/-- The value of the path of a token is null, or its replacement is a text in which no brace
opens. -/
def Replaceable (t : Token) : Prop :=
  (value t.path).isNull = false → ∃ r, replacement t (value t.path) = .ok r ∧ '\x7b' ∉ r.toList

/-- The text with one more token replaced. -/
def replaceOne (text : List Char) (t : Token) : List Char :=
  if (value t.path).isNull then text else replaceAll t.full (shown (value t.path) t) text

variable {value}

theorem shown_of_null {v : Value} {t : Token} (h : v.isNull = true) : shown v t = t.full := by
  simp only [shown, h]

theorem Replaceable.shown {t : Token} (h : Replaceable value t)
    (hnull : (value t.path).isNull = false) :
    ∃ r, replacement t (value t.path) = .ok r ∧ shown (value t.path) t = r.toList ∧
      '\x7b' ∉ r.toList := by
  obtain ⟨r, hr, hbrace⟩ := h hnull
  exact ⟨r, hr, by simp only [Template.shown, hnull, hr], hbrace⟩

/-- A token is shown by its own text or by one in which no brace opens. -/
theorem Replaceable.shown_or {t : Token} (h : Replaceable value t) :
    Template.shown (value t.path) t = t.full ∨ '\x7b' ∉ Template.shown (value t.path) t := by
  cases hnull : (value t.path).isNull with
  | true => exact .inl (shown_of_null hnull)
  | false =>
      obtain ⟨r, -, hshown, hbrace⟩ := h.shown hnull
      exact .inr (hshown ▸ hbrace)

/-- Tokens are replaced one after the other, each by what the value of its path gives. -/
theorem substitute_eq_foldl {σ : Type} {l : Loader σ} {known : List (List Char × Value)}
    {ts : List Token} {s : σ}
    (values : ∀ path v, (lookUps l known ts s).lookup path = some v → value path = v)
    (replaceable : ∀ t ∈ ts, Replaceable value t) (text : List Char) :
    ((substitute known text ts).run.under l s).1 = .ok (ts.foldl (replaceOne value) text) := by
  induction ts generalizing known text s with
  | nil => rfl
  | cons t ts ih =>
      rw [List.forall_mem_cons] at replaceable
      obtain ⟨ht, hts⟩ := replaceable
      have hvalue : value t.path = (lookUp l known t s).1 := by
        refine values t.path _ (lookup_lookUps ts _ ?_)
        simp
      rw [substitute_cons, List.foldl_cons, replaceOne]
      cases hnull : (value t.path).isNull with
      | true =>
          rw [if_pos rfl, ← hvalue, hnull]
          exact ih (by rw [hvalue]; exact values) hts text
      | false =>
          obtain ⟨r, hr, hshown, -⟩ := ht.shown hnull
          rw [if_neg Bool.false_ne_true, ← hvalue, hnull, hr, hshown]
          exact ih (by rw [hvalue]; exact values) hts _

/-- A token is replaced where it stands, and those that were replaced before stay so. -/
theorem replaceOne_weaveWith {tokens : List Token} (separated : Separated tokens)
    (grammatical : ∀ t ∈ tokens, Grammatical t) (replaceable : ∀ t ∈ tokens, Replaceable value t)
    {first : List Char} {pieces : List (Token × List Char)} (scans : Scans first pieces)
    (hpieces : ∀ t ∈ pieces.map Prod.fst, t ∈ tokens) {u : Token} (hu : u ∈ tokens)
    {text : Token → List Char}
    (htext : ∀ t ∈ tokens, text t = t.full ∨ text t = shown (value t.path) t) :
    ∃ text', replaceOne value (weaveWith text first pieces) u = weaveWith text' first pieces ∧
      (∀ t ∈ tokens, text' t = t.full ∨ text' t = shown (value t.path) t) ∧
      ∀ t ∈ tokens, t = u ∨ text t = shown (value t.path) t →
        text' t = shown (value t.path) t := by
  rw [replaceOne]
  cases hnull : (value u.path).isNull with
  | true =>
      refine ⟨text, rfl, htext, fun t ht h => ?_⟩
      rcases h with rfl | h
      · -- A token without a value is shown by its own text.
        refine (htext t ht).elim (fun hkept => ?_) id
        rw [hkept, shown_of_null hnull]
      · exact h
  | false =>
      have hstands : ∀ t ∈ tokens, text t = t.full ∨ '\x7b' ∉ text t := by
        intro t ht
        rcases htext t ht with h | h
        · exact .inl h
        · exact h ▸ (replaceable t ht).shown_or
      have same : ∀ t ∈ tokens, text t = u.full → t = u := by
        intro t ht hfull
        rcases hstands t ht with h | h
        · exact full_injective (grammatical t ht) (grammatical u hu) (h.symm.trans hfull)
        · exact absurd (hfull ▸ List.mem_cons_self) h
      have hone : ∀ t ∈ tokens, t = u ∨ text t = shown (value t.path) t →
          (if text t = u.full then shown (value u.path) u else text t) =
            shown (value t.path) t := by
        intro t ht h
        split
        next hfull => rw [same t ht hfull]
        next hfull =>
          rcases h with rfl | h
          · exact (htext t ht).resolve_left hfull
          · exact h
      rw [if_neg Bool.false_ne_true, replaceAll_weaveWith separated hu (grammatical u hu) _
        hstands scans hpieces]
      refine ⟨_, rfl, fun t ht => ?_, hone⟩
      by_cases hfull : text t = u.full
      · exact .inr (hone t ht (.inl (same t ht hfull)))
      · rw [if_neg hfull]
        exact htext t ht

/-- Each of the tokens `ts` is replaced where it stands, and one that was replaced before stays
so. -/
theorem foldl_replaceOne {tokens ts : List Token} (separated : Separated tokens)
    (grammatical : ∀ t ∈ tokens, Grammatical t) (replaceable : ∀ t ∈ tokens, Replaceable value t)
    {first : List Char} {pieces : List (Token × List Char)} (scans : Scans first pieces)
    (hpieces : ∀ t ∈ pieces.map Prod.fst, t ∈ tokens) (hts : ∀ t ∈ ts, t ∈ tokens)
    {text : Token → List Char}
    (htext : ∀ t ∈ tokens, text t = t.full ∨ text t = shown (value t.path) t) :
    ∃ text', ts.foldl (replaceOne value) (weaveWith text first pieces) =
        weaveWith text' first pieces ∧
      ∀ t ∈ tokens, t ∈ ts ∨ text t = shown (value t.path) t →
        text' t = shown (value t.path) t := by
  induction ts generalizing text with
  | nil => exact ⟨text, rfl, fun t _ h => h.resolve_left List.not_mem_nil⟩
  | cons u ts ih =>
      rw [List.forall_mem_cons] at hts
      obtain ⟨hu, hts⟩ := hts
      obtain ⟨text₁, hone, htext₁, hshown₁⟩ :=
        replaceOne_weaveWith separated grammatical replaceable scans hpieces hu htext
      obtain ⟨text₂, hrest, hshown₂⟩ := ih hts htext₁
      refine ⟨text₂, by rw [List.foldl_cons, hone, hrest], fun t ht h => hshown₂ t ht ?_⟩
      rcases h with h | h
      · exact (List.mem_cons.mp h).symm.imp id fun h => hshown₁ t ht (.inl h)
      · exact .inr (hshown₁ t ht (.inr h))

end Replacing

/-- **Tokens are replaced where they stand.**  When the tokens of a text can be told apart, and every
replacement that is made is a text in which no brace opens, the text comes out with its literals as
they are and each token replaced: by the replacement when its path has a value, and by its own text
when the value is null.  This is so for any loader, also for one that answers differently every
time. -/
theorem resolveText_positional {σ : Type} (l : Loader σ) (s : σ) {text : String} {first : List Char}
    {pieces : List (Token × List Char)} (htext : text.toList = weave first pieces)
    (scans : Scans first pieces) (separated : Separated (Token.extract text.toList))
    (replaces : ∀ t ∈ Token.extract text.toList, (valueIn l text s t.path).isNull = false →
      ∃ r, replacement t (valueIn l text s t.path) = .ok r ∧ '\x7b' ∉ r.toList) :
    ((resolveText text).run.under l s).1 = .ok (String.ofList (first ++
      pieces.flatMap fun (t, literal) => shown (valueIn l text s t.path) t ++ literal)) := by
  have htokens : Token.extract text.toList = pieces.map Prod.fst := by
    rw [htext, scans.extract_eq]
  have grammatical : ∀ t ∈ Token.extract text.toList, Grammatical t := by
    intro t ht
    exact scans.grammatical t (htokens ▸ ht)
  obtain ⟨text', hresult, hshown⟩ := foldl_replaceOne separated grammatical replaces scans
    (fun t ht => htokens ▸ ht) (fun t ht => ht) (fun t _ => .inl rfl)
  have values : ∀ path v, (lookUps l [] (Token.extract text.toList) s).lookup path = some v →
      valueIn l text s path = v := by
    intro path v hv
    rw [valueIn, hv, Option.getD_some]
  have substituted : ((substitute [] text.toList (Token.extract text.toList)).run.under l s).1 =
      .ok (weaveWith (fun t => shown (valueIn l text s t.path) t) first pieces) := by
    have hall : weaveWith text' first pieces =
        weaveWith (fun t => shown (valueIn l text s t.path) t) first pieces :=
      weaveWith_congr first fun t ht => hshown t (htokens ▸ ht) (.inl (htokens ▸ ht))
    have hplain : text.toList = weaveWith Token.full first pieces := htext
    rw [substitute_eq_foldl values replaces, ← hall, ← hresult, ← hplain]
  rw [resolveText]
  split
  next hnone =>
    -- Without tokens the text is its one literal.
    have hpieces : pieces = [] := by simpa [htokens] using hnone
    subst hpieces
    have hfirst : text.toList = first := htext.trans (List.append_nil first)
    show Except.ok text = Except.ok (String.ofList (first ++ []))
    rw [List.append_nil, ← hfirst, String.ofList_toList]
  next hsome =>
    rw [Resolution.under_run_bind]
    rcases hrun : (substitute [] text.toList (Token.extract text.toList)).run.under l s
      with ⟨result, s'⟩
    rw [hrun] at substituted
    dsimp only at substituted
    subst substituted
    rfl

/-- A loader that finds the account of a contact once. -/
def fickle : Loader Nat where
  base := fun _ =>
    .map [(Lookup.idKey "owner", .text "a1"), (Lookup.entityKey "owner", .text "account")]
  fetch := fun _ _ n => (if n = 0 then some (.map [("name", .text "Acme")]) else none, n + 1)

/-- The account in capitals, a field that is not there, braces around nothing, and the account
again. -/
def caption : String :=
  "\x7bowner.name\x7d.toUpperCase()\x7bgone\x7d\x7b\x7d of \x7bowner.name\x7d.toLowerCase()"

def captionPieces : List (Token × List Char) :=
  [(⟨"owner.name".toList, some "toUpperCase".toList, some []⟩, []),
    (⟨"gone".toList, none, none⟩, "\x7b\x7d of ".toList),
    (⟨"owner.name".toList, some "toLowerCase".toList, some []⟩, [])]

theorem caption_positional :
    ((resolveText caption).run.under fickle 0).1 = .ok "ACME\x7bgone\x7d\x7b\x7d of acme" := by
  have htext : caption.toList = weave [] captionPieces := by decide
  have scans : Scans [] captionPieces := by decide
  have htokens : Token.extract caption.toList = captionPieces.map Prod.fst := by decide
  have separated : Separated (Token.extract caption.toList) := ⟨by decide, by decide, by decide⟩
  refine (resolveText_positional fickle 0 htext scans separated ?_).trans rfl
  rw [htokens]
  intro t ht
  simp only [captionPieces, List.map_cons, List.map_nil, List.mem_cons, List.not_mem_nil,
    or_false] at ht
  rcases ht with rfl | rfl | rfl
  · exact fun _ => ⟨"ACME", rfl, by decide⟩
  · intro hvalue
    cases hvalue
  · exact fun _ => ⟨"acme", rfl, by decide⟩

end Template

end Toolbar
