/-
# `Toolbar.Proofs.Expr.Fields` — the fields of an expression

An expression has the fields that its lexemes name, in the order in which they stand: the parser
drops none, and makes up none.  Each rule of the grammar reads some lexemes and gives an expression,
and `Passes fs ls rest` says of what was read between `ls` and `rest` that its fields are `fs`.  The
rules call each other, so the nine statements are proved together, by induction on the fuel.
-/
import Toolbar.Expr.Parser

namespace Toolbar.Expr

mutual
/-- The paths of the fields of an expression, from left to right. -/
def fields : Expr → List String
  | literal _ => []
  | field path => [path]
  | root _ => []
  | member target _ => target.fields
  | call target _ args => target.fields ++ fieldsOfAll args
  | unary _ operand => operand.fields
  | binary left _ right => left.fields ++ right.fields
/-- The paths of the fields of expressions. -/
def fieldsOfAll : List Expr → List String
  | [] => []
  | e :: es => e.fields ++ fieldsOfAll es
end

/-- The path that a field in braces names. -/
def Lexeme.path (l : Lexeme) : List Char :=
  Parser.inside l.text

/-- The fields among lexemes. -/
def Lexeme.fieldsOf (ls : List Lexeme) : List Lexeme :=
  ls.filter (·.kind == .field)

/-- Between `ls` and `rest` the fields `fs` are read. -/
def Passes (fs : List String) (ls rest : List Lexeme) : Prop :=
  ∃ used, ls = used ++ rest ∧
    (Lexeme.fieldsOf used).map (fun l => String.ofList l.path) = fs

namespace Passes

variable {fs gs : List String} {ls mid rest : List Lexeme}

theorem refl (ls : List Lexeme) : Passes [] ls ls :=
  ⟨[], rfl, rfl⟩

theorem trans : Passes fs ls mid → Passes gs mid rest → Passes (fs ++ gs) ls rest
  | ⟨used, hls, hfs⟩, ⟨used', hmid, hgs⟩ => by
      refine ⟨used ++ used', by rw [hls, hmid, List.append_assoc], ?_⟩
      rw [← hfs, ← hgs, Lexeme.fieldsOf, List.filter_append, List.map_append]
      rfl

/-- A lexeme that is no field is passed. -/
theorem skip {l : Lexeme} {kind : Lexeme.Kind} (h : l.kind = kind) (not_field : kind ≠ .field) :
    Passes [] (l :: ls) ls := by
  refine ⟨[l], rfl, ?_⟩
  simp [Lexeme.fieldsOf, h, not_field]

theorem field {l : Lexeme} (h : l.kind = .field) :
    Passes [String.ofList l.path] (l :: ls) ls := by
  refine ⟨[l], rfl, ?_⟩
  simp [Lexeme.fieldsOf, h]

theorem of_passOp {o : String} (h : Parser.passOp? o ls = some rest) : Passes [] ls rest := by
  cases ls with
  | nil => cases h
  | cons l ls =>
      simp only [Parser.passOp?] at h
      split at h
      next hop =>
        cases h
        have hkind : l.kind = .op := by
          have hboth := Bool.and_eq_true_iff.mp hop
          simpa using hboth.1
        exact skip hkind (by decide)
      next => cases h

theorem of_findOp {β : Type} {text : β → String} {os : List β} {op : β}
    (h : os.findSome? (fun o => (Parser.passOp? (text o) ls).map (o, ·)) = some (op, rest)) :
    Passes [] ls rest := by
  obtain ⟨o, -, ho⟩ := List.exists_of_findSome?_eq_some h
  obtain ⟨rest', hpass, heq⟩ := Option.map_eq_some_iff.mp ho
  cases heq
  exact of_passOp hpass

theorem of_expect {o : String} (h : Parser.expect o ls = .ok rest) : Passes [] ls rest := by
  unfold Parser.expect at h
  split at h
  next hpass => cases h; exact of_passOp hpass
  next => cases h

end Passes

/-- Values and roots have no fields. -/
theorem fields_name {l : Lexeme} {e : Expr} (h : Parser.name l = .ok e) : e.fields = [] := by
  simp only [Parser.name] at h
  split at h
  · cases h
    rfl
  · split at h
    · cases h
      rfl
    · cases h

/-! ## The rules of the grammar -/

/-- With so much fuel, every rule gives the fields that it reads. -/
structure ReadsFields (fuel : Nat) : Prop where
  expr : ∀ {room ls e rest}, Parser.expr fuel room ls = .ok (e, rest) → Passes e.fields ls rest
  binary : ∀ {room level ls e rest}, Parser.binary fuel room level ls = .ok (e, rest) →
    Passes e.fields ls rest
  moreOperands : ∀ {room level left ls e rest},
    Parser.moreOperands fuel room level left ls = .ok (e, rest) →
      ∃ fs, e.fields = left.fields ++ fs ∧ Passes fs ls rest
  unary : ∀ {room ls e rest}, Parser.unary fuel room ls = .ok (e, rest) → Passes e.fields ls rest
  postfixed : ∀ {room ls e rest}, Parser.postfixed fuel room ls = .ok (e, rest) →
    Passes e.fields ls rest
  moreSuffixes : ∀ {room target ls e rest},
    Parser.moreSuffixes fuel room target ls = .ok (e, rest) →
      ∃ fs, e.fields = target.fields ++ fs ∧ Passes fs ls rest
  arguments : ∀ {room ls es rest}, Parser.arguments fuel room ls = .ok (es, rest) →
    Passes (fieldsOfAll es) ls rest
  moreArguments : ∀ {room ls es rest}, Parser.moreArguments fuel room ls = .ok (es, rest) →
    Passes (fieldsOfAll es) ls rest
  primary : ∀ {room ls e rest}, Parser.primary fuel room ls = .ok (e, rest) →
    Passes e.fields ls rest

/-- Without fuel every rule refuses. -/
theorem ReadsFields.zero : ReadsFields 0 := by
  constructor
  all_goals
    intros
    rename_i h
    simp only [Parser.expr, Parser.binary, Parser.moreOperands, Parser.unary, Parser.postfixed,
      Parser.moreSuffixes, Parser.arguments, Parser.moreArguments, Parser.primary,
      Parser.refuse] at h
    cases h

namespace ReadsFields

variable {fuel : Nat} (ih : ReadsFields fuel)

include ih

theorem succ_expr {room : Nat} {ls : List Lexeme} {e : Expr} {rest : List Lexeme}
    (h : Parser.expr (fuel + 1) room ls = .ok (e, rest)) : Passes e.fields ls rest := by
  cases room with
  | zero =>
      simp only [Parser.expr] at h
      cases h
  | succ room =>
      simp only [Parser.expr] at h
      exact ih.binary h

theorem succ_binary {room level : Nat} {ls : List Lexeme} {e : Expr} {rest : List Lexeme}
    (h : Parser.binary (fuel + 1) room level ls = .ok (e, rest)) : Passes e.fields ls rest := by
  simp only [Parser.binary] at h
  split at h
  · obtain ⟨⟨left, mid⟩, hleft, hmore⟩ := bind_eq_ok.mp h
    obtain ⟨fs, hfields, hpass⟩ := ih.moreOperands hmore
    rw [hfields]
    exact (ih.binary hleft).trans hpass
  · exact ih.unary h

theorem succ_moreOperands {room level : Nat} {left : Expr} {ls : List Lexeme} {e : Expr}
    {rest : List Lexeme}
    (h : Parser.moreOperands (fuel + 1) room level left ls = .ok (e, rest)) :
    ∃ fs, e.fields = left.fields ++ fs ∧ Passes fs ls rest := by
  simp only [Parser.moreOperands] at h
  split at h
  · cases h
    exact ⟨[], (List.append_nil _).symm, .refl _⟩
  next op after hop =>
    obtain ⟨⟨right, mid⟩, hright, hmore⟩ := bind_eq_ok.mp h
    obtain ⟨fs, hfields, hpass⟩ := ih.moreOperands hmore
    refine ⟨right.fields ++ fs, ?_, ?_⟩
    · rw [hfields, fields, List.append_assoc]
    · exact (Passes.of_findOp hop).trans ((ih.binary hright).trans hpass)

theorem succ_unary {room : Nat} {ls : List Lexeme} {e : Expr} {rest : List Lexeme}
    (h : Parser.unary (fuel + 1) room ls = .ok (e, rest)) : Passes e.fields ls rest := by
  simp only [Parser.unary] at h
  split at h
  · exact ih.postfixed h
  next op after hop =>
    cases room with
    | zero => cases h
    | succ room =>
        obtain ⟨⟨operand, mid⟩, hoperand, hdone⟩ := bind_eq_ok.mp h
        cases hdone
        exact (Passes.of_findOp hop).trans (ih.unary hoperand)

theorem succ_postfixed {room : Nat} {ls : List Lexeme} {e : Expr} {rest : List Lexeme}
    (h : Parser.postfixed (fuel + 1) room ls = .ok (e, rest)) : Passes e.fields ls rest := by
  simp only [Parser.postfixed] at h
  obtain ⟨⟨target, mid⟩, htarget, hmore⟩ := bind_eq_ok.mp h
  obtain ⟨fs, hfields, hpass⟩ := ih.moreSuffixes hmore
  rw [hfields]
  exact (ih.primary htarget).trans hpass

theorem succ_moreSuffixes {room : Nat} {target : Expr} {ls : List Lexeme} {e : Expr}
    {rest : List Lexeme} (h : Parser.moreSuffixes (fuel + 1) room target ls = .ok (e, rest)) :
    ∃ fs, e.fields = target.fields ++ fs ∧ Passes fs ls rest := by
  simp only [Parser.moreSuffixes] at h
  split at h
  · cases h
    exact ⟨[], (List.append_nil _).symm, .refl _⟩
  next after hpoint =>
    have point := Passes.of_passOp hpoint
    split at h
    next hname =>
      have name : Passes [] after (after.drop 1) := by
        cases after with
        | nil => exact .refl _
        | cons l ls =>
            have hkind : l.kind = .name := by simpa [Parser.peek] using hname
            exact .skip hkind (by decide)
      split at h
      · obtain ⟨fs, hfields, hpass⟩ := ih.moreSuffixes h
        exact ⟨fs, hfields, point.trans (name.trans hpass)⟩
      next inner hopen =>
        obtain ⟨⟨args, mid⟩, hargs, hmore⟩ := bind_eq_ok.mp h
        obtain ⟨fs, hfields, hpass⟩ := ih.moreSuffixes hmore
        refine ⟨fieldsOfAll args ++ fs, ?_, ?_⟩
        · rw [hfields, fields, List.append_assoc]
        · exact point.trans
            (name.trans ((Passes.of_passOp hopen).trans ((ih.arguments hargs).trans hpass)))
    next => cases h

theorem succ_arguments {room : Nat} {ls : List Lexeme} {es : List Expr} {rest : List Lexeme}
    (h : Parser.arguments (fuel + 1) room ls = .ok (es, rest)) :
    Passes (fieldsOfAll es) ls rest := by
  simp only [Parser.arguments] at h
  split at h
  next hclose =>
    cases h
    exact .of_passOp hclose
  next => exact ih.moreArguments h

theorem succ_moreArguments {room : Nat} {ls : List Lexeme} {es : List Expr} {rest : List Lexeme}
    (h : Parser.moreArguments (fuel + 1) room ls = .ok (es, rest)) :
    Passes (fieldsOfAll es) ls rest := by
  simp only [Parser.moreArguments] at h
  obtain ⟨⟨arg, mid⟩, harg, hnext⟩ := bind_eq_ok.mp h
  split at hnext
  next hclose =>
    cases hnext
    exact (ih.expr harg).trans (.of_passOp hclose)
  next =>
    obtain ⟨after, hcomma, hmore⟩ := bind_eq_ok.mp hnext
    obtain ⟨⟨args, last⟩, hargs, hdone⟩ := bind_eq_ok.mp hmore
    cases hdone
    exact (ih.expr harg).trans ((Passes.of_expect hcomma).trans (ih.moreArguments hargs))

/-- Where an operator or the end is next, an operand is an expression in parentheses. -/
theorem of_parentheses {room : Nat} {ls : List Lexeme} {e : Expr} {rest : List Lexeme}
    (h : (match Parser.passOp? "(" ls with
      | none => Parser.refuse .unexpectedToken ls
      | some after => do
          let (inner, after) ← Parser.expr fuel room after
          let after ← Parser.expect ")" after
          return (inner, after)) = .ok (e, rest)) : Passes e.fields ls rest := by
  split at h
  · cases h
  next after hopen =>
    obtain ⟨⟨inner, mid⟩, hinner, hnext⟩ := bind_eq_ok.mp h
    obtain ⟨last, hclose, hdone⟩ := bind_eq_ok.mp hnext
    cases hdone
    have read := (ih.expr hinner).trans (.of_expect hclose)
    rw [List.append_nil] at read
    exact (Passes.of_passOp hopen).trans read

theorem succ_primary {room : Nat} {ls : List Lexeme} {e : Expr} {rest : List Lexeme}
    (h : Parser.primary (fuel + 1) room ls = .ok (e, rest)) : Passes e.fields ls rest := by
  simp only [Parser.primary] at h
  cases ls with
  | nil =>
      simp only [Parser.peek, Parser.passOp?, Parser.refuse] at h
      cases h
  | cons l ls =>
      cases hkind : l.kind with
      | number =>
          simp only [Parser.peek, hkind] at h
          obtain ⟨v, -, hdone⟩ := bind_eq_ok.mp h
          cases hdone
          exact .skip hkind (by decide)
      | text =>
          simp only [Parser.peek, hkind] at h
          cases h
          exact .skip hkind (by decide)
      | field =>
          simp only [Parser.peek, hkind] at h
          cases h
          exact .field hkind
      | name =>
          simp only [Parser.peek, hkind] at h
          obtain ⟨e', hname, hdone⟩ := bind_eq_ok.mp h
          cases hdone
          rw [fields_name hname]
          exact .skip hkind (by decide)
      | op =>
          simp only [Parser.peek, hkind] at h
          exact ih.of_parentheses h
      | stop =>
          simp only [Parser.peek, hkind] at h
          exact ih.of_parentheses h

end ReadsFields

theorem readsFields : ∀ fuel, ReadsFields fuel
  | 0 => .zero
  | fuel + 1 => by
      have ih := readsFields fuel
      exact ⟨ih.succ_expr, ih.succ_binary, ih.succ_moreOperands, ih.succ_unary,
        ih.succ_postfixed, ih.succ_moreSuffixes, ih.succ_arguments, ih.succ_moreArguments,
        ih.succ_primary⟩

/-- An expression has the fields of the lexemes before the end. -/
theorem passes_ofLexemes {depth : Nat} {ls : List Lexeme} {e : Expr}
    (h : ofLexemes depth ls = .ok e) :
    ∃ rest, (Parser.peek rest).kind = .stop ∧ Passes e.fields ls rest := by
  obtain ⟨⟨e', rest⟩, hexpr, hend⟩ := bind_eq_ok.mp h
  refine ⟨rest, ?_⟩
  dsimp only at hend
  split at hend
  next hstop =>
    cases hend
    exact ⟨by simpa using hstop, (readsFields _).expr hexpr⟩
  next => cases hend

/-- Where nothing but the last lexeme is an end, an expression has the fields of all lexemes. -/
theorem fields_ofLexemes {depth : Nat} {before : List Lexeme} {last : Lexeme} {e : Expr}
    (h : ofLexemes depth (before ++ [last]) = .ok e) (hlast : last.kind = .stop)
    (hbefore : ∀ l ∈ before, l.kind ≠ .stop) :
    e.fields = (Lexeme.fieldsOf before).map fun l => String.ofList l.path := by
  obtain ⟨rest, hstop, used, hused, hfields⟩ := passes_ofLexemes h
  have last_no_field : Lexeme.fieldsOf [last] = [] := by simp [Lexeme.fieldsOf, hlast]
  have all : Lexeme.fieldsOf used = Lexeme.fieldsOf before := by
    rcases rest with _ | ⟨l, rest⟩
    · have heq : Lexeme.fieldsOf (before ++ [last]) = Lexeme.fieldsOf used := by
        rw [hused, List.append_nil]
      rw [← heq, Lexeme.fieldsOf, List.filter_append]
      exact (congrArg (before.filter _ ++ ·) last_no_field).trans (List.append_nil _)
    · rcases List.eq_nil_or_concat rest with rfl | ⟨rest, x, rfl⟩
      · rw [(List.append_inj' hused rfl).1]
      · -- Then `l` stands before the last lexeme, and is no end.
        have hsplit : before ++ [last] = (used ++ l :: rest) ++ [x] := by
          rw [hused, List.concat_eq_append]
          simp
        have hl : l ∈ before := by
          rw [(List.append_inj' hsplit rfl).1]
          exact List.mem_append_right _ List.mem_cons_self
        exact absurd hstop (hbefore l hl)
  rw [← hfields, all]

end Toolbar.Expr
