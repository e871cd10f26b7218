/-
# `Toolbar.Proofs.Expr.References` — which fields of an expression are collected

Two readers cut the text of a visibility expression.  The references are the paths of its tokens, as
in a template; the fields that are evaluated are those of its lexemes.  They agree on a field unless
a token that began further left runs over it: such a field is hidden, and it is null in the
evaluation unless its path is referred to elsewhere too.

    text                     fields      references     hidden by
    {a} == {b}               a, b        a, b
    {a}.startsWith({b})      a, b        a              the arguments of a method
    '{' + {a}                a           ' + {a         a brace in a quoted text

The last column has no other cause (`hidden_cause`).
-/
import Toolbar.Expr.Visibility
import Toolbar.Proofs.Expr.Lexeme

namespace Toolbar.Expr

/-! ## Hidden fields -/

/-- A field stands in a token that begins further left. -/
def Hides (y : Span Token) (l : Lexeme) : Prop :=
  y.start < l.position ∧ l.position < y.stop

/-- A field of a source that a token hides. -/
def Hidden (source : List Char) (l : Lexeme) : Prop :=
  l.kind = .field ∧ ∃ y ∈ Token.spans source, Hides y l

/-- A field lexeme stands where a path in braces does. -/
theorem Lexeme.field_span {source : List Char} {ls : List Lexeme}
    (h : Lexeme.ofSource source = .ok ls) {l : Lexeme} (hl : l ∈ ls) (hkind : l.kind = .field) :
    ∃ x ∈ spans Lexeme.at? 0 0 source, x.start = l.position ∧
      ∃ rest, Token.pathAt? (source.drop l.position) = some (l.path, rest) := by
  rw [Lexeme.ofSource_eq_spans h] at hl
  rcases List.mem_append.mp hl with hl | hl
  · obtain ⟨x, hx, rfl⟩ := List.mem_map.mp hl
    have hat := cut_of_mem_spans hx
    have hpiece : x.piece = .field := hkind
    rw [hpiece] at hat
    obtain ⟨path, rest, hpath, -, hinside⟩ := Lexeme.field_at hat
    refine ⟨x, hx, rfl, rest, ?_⟩
    have hl : (Lexeme.ofSpan source x).path = path := hinside
    rw [hl]
    exact hpath
  · rw [List.mem_singleton.mp hl] at hkind
    cases hkind

theorem Token.cut_of_pathAt? {cs path rest : List Char} (h : Token.pathAt? cs = some (path, rest)) :
    ∃ t n, Token.cut cs = some (t, n) ∧ t.path = path := by
  cases hat : Token.at? cs with
  | none =>
      simp only [Token.at?, h] at hat
      split at hat <;> cases hat
  | some found =>
      obtain ⟨t, after⟩ := found
      obtain ⟨_, hpath⟩ := Token.pathAt?_of_at? hat
      rw [h] at hpath
      cases hpath
      exact ⟨t, t.full.length, by rw [Token.cut, hat, Option.map_some], rfl⟩

/-- A field that is not hidden is referred to. -/
theorem hidden_or_mem_references {source : List Char} {ls : List Lexeme}
    (h : Lexeme.ofSource source = .ok ls) {l : Lexeme} (hl : l ∈ ls) (hkind : l.kind = .field) :
    Hidden source l ∨ l.path ∈ (Token.extract source).map (·.path) := by
  obtain ⟨-, -, -, rest, hpath⟩ := Lexeme.field_span h hl hkind
  obtain ⟨t, n, hcut, htpath⟩ := Token.cut_of_pathAt? hpath
  have found : ∃ y ∈ Token.spans source, y.Contains l.position :=
    span_covers Token.cut_positive rfl (by rw [hcut]; exact Option.some_ne_none _)
  obtain ⟨y, hy, hstart, hstop⟩ := found
  rcases Nat.lt_or_eq_of_le hstart with hleft | hhere
  · exact .inl ⟨hkind, y, hy, hleft, hstop⟩
  · have hcut' := cut_of_mem_spans hy
    rw [hhere, hcut] at hcut'
    cases hcut'
    refine .inr (List.mem_map.mpr ⟨y.piece, ?_, htpath⟩)
    rw [Token.extract_eq_spans]
    exact List.mem_map_of_mem hy

/-! ## What hides a field -/

/-- A brace that opens behind the path of a token, but in the token, opens among its arguments. -/
theorem brace_in_token {source : List Char} {y : Span Token} (hy : y ∈ Token.spans source)
    {i : Nat} {rest : List Char} (hbrace : source.drop i = '\x7b' :: rest)
    (behind : y.start + y.piece.path.length + 2 ≤ i) (inside : i < y.stop) :
    ∃ args, y.piece.args = some args ∧ y.stop ≤ i + args.length + 1 ∧ i + 1 < y.stop := by
  obtain ⟨after, hat, hlength⟩ := Token.at?_of_mem_spans hy
  rw [Token.length_full] at hlength
  obtain ⟨o, rfl⟩ := Nat.exists_eq_add_of_le behind
  have ho : o < y.piece.suffix.length := by
    simp only [Span.stop] at inside
    omega
  -- The brace stands at `o` in the suffix.
  have hdrop : source.drop (y.start + y.piece.path.length + 2 + o) =
      y.piece.suffix.drop o ++ after := by
    rw [Nat.add_assoc y.start, Nat.add_assoc y.start, ← List.drop_drop, Token.eq_of_at? hat,
      Token.drop_full, List.drop_append_of_le_length (Nat.le_of_lt ho)]
  rw [hbrace] at hdrop
  have hne : y.piece.suffix.drop o ≠ [] := by
    intro hnil
    exact absurd (List.drop_eq_nil_iff.mp hnil) (Nat.not_le_of_lt ho)
  obtain ⟨c, right, hright⟩ := List.exists_cons_of_ne_nil hne
  rw [hright] at hdrop
  obtain ⟨rfl, -⟩ := List.cons.inj hdrop
  have hsuffix : y.piece.suffix = y.piece.suffix.take o ++ '\x7b' :: right := by
    rw [← hright, List.take_append_drop]
  obtain ⟨args, hargs, hle, hright_ne⟩ := Token.brace_in_suffix hat hsuffix
  have hsum : y.piece.suffix.length = o + 1 + right.length := by
    have hlen := congrArg List.length hright
    simp only [List.length_drop, List.length_cons] at hlen
    omega
  have hpos := List.length_pos_iff.mpr hright_ne
  simp only [Span.stop] at inside ⊢
  exact ⟨args, hargs, by omega, by omega⟩

/-- Where a token begins in a field, it ends its path where the field ends. -/
theorem path_ends_with_field {source : List Char} {y : Span Token} (hy : y ∈ Token.spans source)
    {m : Span Lexeme.Kind} (hm : m ∈ spans Lexeme.at? 0 0 source) (hkind : m.piece = .field)
    (hin : m.Contains y.start) : y.start + y.piece.path.length + 2 = m.stop := by
  obtain ⟨rest, hat, -⟩ := Token.at?_of_mem_spans hy
  obtain ⟨after, hpath⟩ := Token.pathAt?_of_at? hat
  have hm := cut_of_mem_spans hm
  rw [hkind] at hm
  obtain ⟨path, rest', hpath', hlength, -⟩ := Lexeme.field_at hm
  obtain ⟨-, hnot, hy_text⟩ := Token.pathAt?_eq_some.mp hpath
  obtain ⟨-, hnot', hm_text⟩ := Token.pathAt?_eq_some.mp hpath'
  obtain ⟨d, hd⟩ := Nat.exists_eq_add_of_le hin.1
  have hdle : d ≤ ('\x7b' :: path).length := by
    have hlt := hin.2
    simp only [Span.stop, List.length_cons] at hlt ⊢
    omega
  have heq : ('\x7b' :: path).drop d ++ '\x7d' :: rest' = '\x7b' :: y.piece.path ++ '\x7d' :: after := by
    rw [← hy_text, hd, ← List.drop_drop, hm_text, List.drop_append_of_le_length hdle]
  have open_only : ∀ {p : List Char}, '\x7d' ∉ p → ∀ a ∈ '\x7b' :: p, (a != '\x7d') = true := by
    intro p hp a ha
    rcases List.mem_cons.mp ha with rfl | ha
    · decide
    · exact bne_iff_ne.mpr fun h => hp (h ▸ ha)
  have hsame := cut_unique heq (fun a ha => open_only hnot' a (List.mem_of_mem_drop ha))
    (by decide) (open_only hnot) (by decide)
  have hlen := congrArg List.length hsame
  simp only [List.length_drop, List.length_cons] at hlen hdle
  simp only [Span.stop]
  omega

/-- A token begins in a quoted text, or in a field with the hidden one among the arguments behind
it. -/
def BeginsIn (y : Span Token) (m l : Lexeme) : Prop :=
  m.position ≤ y.start ∧ y.start < m.position + m.text.length ∧
    (m.kind = .text ∨ m.kind = .field ∧ m.position + m.text.length ≤ l.position ∧
      ∃ args, y.piece.args = some args ∧ y.stop ≤ l.position + args.length + 1 ∧
        l.position + 1 < y.stop)

/-- A field is hidden by arguments or by a quoted text. -/
theorem hidden_cause {source : List Char} {ls : List Lexeme}
    (h : Lexeme.ofSource source = .ok ls) {l : Lexeme} (hl : l ∈ ls) (hidden : Hidden source l) :
    ∃ y ∈ Token.spans source, Hides y l ∧ ∃ m ∈ ls, BeginsIn y m l := by
  obtain ⟨hkind, y, hy, hleft, hright⟩ := hidden
  refine ⟨y, hy, ⟨hleft, hright⟩, ?_⟩
  obtain ⟨rest, hat, -⟩ := Token.at?_of_mem_spans hy
  obtain ⟨after, hpath⟩ := Token.pathAt?_of_at? hat
  obtain ⟨-, -, hbrace⟩ := Token.pathAt?_eq_some.mp hpath
  have begins : Lexeme.at? (source.drop y.start) ≠ none := by
    rw [Lexeme.at?_field.mpr (Lexeme.fieldLength?_eq_some.mpr ⟨_, _, hpath, rfl⟩)]
    exact Option.some_ne_none _
  obtain ⟨m, hm, hin⟩ := span_covers Lexeme.at?_positive rfl begins
  have hm_at := cut_of_mem_spans hm
  obtain ⟨hstart, hstop⟩ := hin
  -- The brace of the token is one of the lexeme, so the lexeme is long enough, and of two kinds.
  have hget : ((source.drop m.start).take m.length)[y.start - m.start]? = some '\x7b' := by
    simp only [Span.stop] at hstop
    rw [List.getElem?_take_of_lt (by omega), List.getElem?_drop, Nat.add_sub_cancel' hstart,
      ← Nat.add_zero y.start, ← List.getElem?_drop, hbrace]
    rfl
  have inner : y.start < m.start + (Lexeme.ofSpan source m).text.length := by
    have hlt := (List.getElem?_eq_some_iff.mp hget).1
    simp only [Lexeme.ofSpan]
    omega
  have hmem : Lexeme.ofSpan source m ∈ ls := by
    rw [Lexeme.ofSource_eq_spans h]
    exact List.mem_append_left _ (List.mem_map_of_mem hm)
  refine ⟨_, hmem, hstart, inner, ?_⟩
  rcases Lexeme.kind_of_brace hm_at (List.mem_of_getElem? hget) with hfield | htext
  · obtain ⟨x, hx, hx_start, rest', hl_path⟩ := Lexeme.field_span h hl hkind
    obtain ⟨-, -, hl_brace⟩ := Token.pathAt?_eq_some.mp hl_path
    have apart : m.stop ≤ l.position := by
      rw [← hx_start]
      exact spans_apart Lexeme.at?_positive hm hx (by omega)
    have ends := path_ends_with_field hy hm hfield ⟨hstart, hstop⟩
    refine .inr ⟨hfield, Nat.le_trans ?_ apart, brace_in_token hy hl_brace (ends ▸ apart) hright⟩
    exact Nat.add_le_add_left (List.length_take_le ..) m.start
  · exact .inl htext

/-! ## What is collected -/

/-- The value that a reference has: the end of its lookups, or a field of the base record. -/
def referred (lookups : Bool) (base : Value) (store : String → String → Option Value)
    (path : List Char) : Value :=
  if isDotted path && lookups then (Template.pathValue path).direct base store
  else base.field (String.ofList path)

/-- A record is asked for the fields without a lookup that are referred to. -/
theorem get?_collectNow (record : Value) (paths : List (List Char)) (path : String) :
    (collectNow record paths).get? path =
      if path.toList ∈ paths ∧ isDotted path.toList = false then some (record.field path).coerce
      else none := by
  have hpairs : collectNow record paths = Fields.ofPairs
      (((paths.filter (!isDotted ·)).map String.ofList).map fun key =>
        (key, (record.field key).coerce)) := by
    rw [collectNow, List.map_map]
    rfl
  have hmem : path ∈ (paths.filter (!isDotted ·)).map String.ofList ↔
      path.toList ∈ paths ∧ isDotted path.toList = false := by
    constructor
    · intro h
      obtain ⟨p, hp, rfl⟩ := List.mem_map.mp h
      simpa using List.mem_filter.mp hp
    · intro h
      refine List.mem_map.mpr ⟨path.toList, List.mem_filter.mpr ?_, String.ofList_toList⟩
      simpa using h
  rw [hpairs, Fields.ofPairs, Fields.get?_update_map fun key => (record.field key).coerce]
  simp only [hmem]
  rfl

/-- What is collected from references is what each refers to. -/
theorem get?_collectFrom (lookups : Bool) (base : Value)
    (store : String → String → Option Value) (path : String) :
    ∀ (paths : List (List Char)) (known : Fields),
      ((collectFrom lookups known paths).direct base store).get? path =
        (known.get? path).or
          (if path.toList ∈ paths then some (referred lookups base store path.toList).coerce
          else none)
  | [], known => by simp [collectFrom, Resolution.direct]
  | p :: paths, known => by
      simp only [collectFrom]
      by_cases hknown : (known.get? (String.ofList p)).isSome = true
      · rw [if_pos hknown, get?_collectFrom lookups base store path paths known]
        by_cases hp : path.toList = p
        · obtain ⟨v, hv⟩ := Option.isSome_iff_exists.mp hknown
          rw [← hp, String.ofList_toList] at hv
          simp [hv]
        · simp [hp]
      · rw [if_neg hknown, Resolution.direct_bind, get?_collectFrom lookups base store path paths]
        have hvalue : Resolution.direct base store (if isDotted p && lookups then
            Template.pathValue p else .look fun base => .done (base.field (String.ofList p))) =
              referred lookups base store p := by
          unfold referred
          split <;> rfl
        rw [hvalue, Fields.get?_set]
        by_cases hp : path.toList = p
        · rw [← hp, String.ofList_toList] at hknown
          rw [← hp, String.ofList_toList]
          simp [Option.not_isSome_iff_eq_none.mp hknown]
        · have hne : path ≠ String.ofList p := fun h => hp (by rw [h, String.toList_ofList])
          simp [hne, hp]

theorem get?_collect (lookups : Bool) (base : Value) (store : String → String → Option Value)
    (paths : List (List Char)) (path : String) :
    ((collect lookups paths).direct base store).get? path =
      if path.toList ∈ paths then some (referred lookups base store path.toList).coerce
      else none :=
  get?_collectFrom lookups base store path paths []

/-- Who cannot wait refuses an expression with a reference through a lookup. -/
theorem holdsNow_of_dotted {source : String} {path : List Char} (hpath : path ∈ references source)
    (hdot : isDotted path = true) (record : Value) (around : Surroundings) :
    holdsNow record around (some source) = false := by
  have hany : (references source).any isDotted = true := List.any_eq_true.mpr ⟨path, hpath, hdot⟩
  have hne : source.isEmpty = false := by
    refine Bool.eq_false_iff.mpr fun hempty => ?_
    rw [String.isEmpty_iff.mp hempty] at hpath
    cases hpath
  simp only [holdsNow, hne, hany, if_true]
  rfl

/-! ## Expressions and their references -/

/-- The fields of an expression are those of the lexemes of its source. -/
theorem fields_ofSource {depth : Nat} {source : String} {e : Expr}
    (accepted : ofSource depth source = .ok e) :
    ∃ ls, Lexeme.ofSource source.toList = .ok ls ∧
      e.fields = (Lexeme.fieldsOf ls).map fun l => String.ofList l.path := by
  obtain ⟨ls, hls, he⟩ := bind_eq_ok.mp accepted
  refine ⟨ls, hls, ?_⟩
  have hspans := Lexeme.ofSource_eq_spans hls
  rw [hspans] at he
  rw [fields_ofLexemes he rfl Lexeme.spans_no_stop, hspans, Lexeme.fieldsOf, Lexeme.fieldsOf,
    List.filter_append]
  simp

/-- **An expression and its references agree on the fields that are not hidden.**  The references of
an expression that is accepted hold every field of it, unless a field is hidden and its path is
referred to nowhere.  What hides a field is a token that begins in a quoted text, or in another field
with the hidden one among the arguments behind it.

Where a field is referred to, its value is collected, and who cannot wait refuses the expression if
the field is behind a lookup.  Where it is not, nothing is collected for it. -/
theorem references_agree {depth : Nat} {source : String} {e : Expr}
    (accepted : ofSource depth source = .ok e) :
    ∃ ls, Lexeme.ofSource source.toList = .ok ls ∧
      ((∀ path ∈ e.fields, path.toList ∈ references source) ↔
        ∀ l ∈ ls, Hidden source.toList l → l.path ∈ references source) ∧
      (∀ l ∈ ls, Hidden source.toList l →
        ∃ y ∈ Token.spans source.toList, Hides y l ∧ ∃ m ∈ ls, BeginsIn y m l) ∧
      ∀ path ∈ e.fields,
        (path.toList ∈ references source →
          (isDotted path.toList = true → ∀ record around,
            holdsNow record around (some source) = false) ∧
          (isDotted path.toList = false → ∀ record,
            (collectNow record (references source)).get? path =
              some (record.field path).coerce) ∧
          ∀ lookups base store,
            ((collect lookups (references source)).direct base store).get? path =
              some (referred lookups base store path.toList).coerce) ∧
        (path.toList ∉ references source →
          (∀ record, (collectNow record (references source)).get? path = none) ∧
          ∀ lookups base store,
            ((collect lookups (references source)).direct base store).get? path = none) := by
  obtain ⟨ls, hls, hfields⟩ := fields_ofSource accepted
  refine ⟨ls, hls, ⟨?_, ?_⟩, fun l hl hidden => hidden_cause hls hl hidden, fun path _ => ⟨?_, ?_⟩⟩
  · intro h l hl hidden
    have hmem : String.ofList l.path ∈ e.fields := by
      rw [hfields]
      refine List.mem_map.mpr ⟨l, List.mem_filter.mpr ⟨hl, ?_⟩, rfl⟩
      rw [hidden.1]
      rfl
    have href := h _ hmem
    rwa [String.toList_ofList] at href
  · intro h path hpath
    rw [hfields] at hpath
    obtain ⟨l, hl, rfl⟩ := List.mem_map.mp hpath
    obtain ⟨hl, hkind⟩ := List.mem_filter.mp hl
    rw [String.toList_ofList]
    rcases hidden_or_mem_references hls hl (by simpa using hkind) with hidden | hmem
    · exact h l hl hidden
    · exact hmem
  · intro hmem
    refine ⟨fun hdot => holdsNow_of_dotted hmem hdot, fun hdot record => ?_,
      fun lookups base store => ?_⟩
    · rw [get?_collectNow, if_pos ⟨hmem, hdot⟩]
    · rw [get?_collect, if_pos hmem]
  · intro hmem
    refine ⟨fun record => ?_, fun lookups base store => ?_⟩
    · rw [get?_collectNow, if_neg fun h => hmem h.1]
    · rw [get?_collect, if_neg hmem]

/-- An argument that is a field is hidden, and nothing is collected for it. -/
theorem argument_hidden :
    ofSource defaultDepth "\x7ba\x7d.startsWith(\x7bb\x7d)" =
      .ok (.call (.field "a") "startsWith" [.field "b"]) ∧
    (∃ l, Hidden "\x7ba\x7d.startsWith(\x7bb\x7d)".toList l) ∧
    ∀ record, (collectNow record (references "\x7ba\x7d.startsWith(\x7bb\x7d)")).get? "b" = none := by
  have accepted : ofSource defaultDepth "\x7ba\x7d.startsWith(\x7bb\x7d)" =
      .ok (.call (.field "a") "startsWith" [.field "b"]) := by cbv
  have missing : "b".toList ∉ references "\x7ba\x7d.startsWith(\x7bb\x7d)" := by decide +kernel
  have field : "b" ∈ (Expr.call (.field "a") "startsWith" [.field "b"]).fields := by
    simp [fields, fieldsOfAll]
  obtain ⟨ls, -, hiff, -, hread⟩ := references_agree accepted
  refine ⟨accepted, ?_, ((hread "b" field).2 missing).1⟩
  refine Classical.byContradiction fun none_hidden => missing (hiff.mpr ?_ "b" field)
  exact fun l _ hidden => absurd ⟨l, hidden⟩ none_hidden

end Toolbar.Expr
