/-
# `Toolbar.Proofs.Expr.Grammar` — the grammar of expressions

    expr      := or
    or        := and ("||" and)*
    and       := eq ("&&" eq)*
    eq        := cmp (("===" | "!==" | "==" | "!=") cmp)*
    cmp       := add (("<" | "<=" | ">" | ">=") add)*
    add       := mul (("+" | "-") mul)*
    mul       := unary (("*" | "/" | "%") unary)*
    unary     := ("!" | "-") unary | postfix
    postfix   := primary ("." NAME ("(" [expr ("," expr)*] ")")?)*
    primary   := NUMBER | TEXT | FIELD | a word | a root | "(" expr ")"

`Derives` is this grammar as a relation between lexemes and expressions, one constructor for each
way to apply a rule, the binary levels numbered from `||` and left-recursive, so that operators of
one level associate to the left.  Its last index is the nesting of the derivation: one, and one more
for each parenthesis, argument list and unary operator around the operand that has most of them.

The main statement is `accepts_iff_derives`: of the lexemes of a source the parser makes an
expression exactly when they derive it with a nesting that the limit allows, and they derive no
other.  It has two halves,

    Sound       what the parser reads is derived, by induction on its fuel
    Completes   what is derived the parser reads, by recursion on the derivation

and the second also says that the fuel which the parser starts with is enough.
-/
import Toolbar.Proofs.Expr.Numeral

namespace Toolbar.Expr

open Toolbar.Expr.Parser

/-- A lexeme is the operator `o`. -/
def Lexeme.IsOp (l : Lexeme) (o : String) : Prop :=
  l.kind = .op ∧ String.ofList l.text = o

/-- The rules for one expression, the binary ones by their level. -/
inductive Rule where
  | binary (level : Nat)
  | unary
  | postfixed
  | primary

/-- The words that are values. -/
def words : List (String × Value) :=
  [("true", .bool true), ("false", .bool false), ("null", .null), ("undefined", .null)]

mutual
/-- The lexemes are derived by the rule, they make the expression, and the derivation has the
nesting. -/
inductive Derives : Rule → List Lexeme → Expr → Nat → Prop
  | operand {level : Nat} {ls : List Lexeme} {e : Expr} {n : Nat} : level < BinaryOp.levels →
      Derives (.binary (level + 1)) ls e n → Derives (.binary level) ls e n
  | operators {level : Nat} {op : BinaryOp} {l : Lexeme} {ls rs : List Lexeme} {left right : Expr}
      {n m : Nat} : Derives (.binary level) ls left n → op ∈ BinaryOp.atLevel level →
      l.IsOp op.text → Derives (.binary (level + 1)) rs right m →
      Derives (.binary level) (ls ++ l :: rs) (.binary left op right) (max n m)
  | factor {ls : List Lexeme} {e : Expr} {n : Nat} : Derives .unary ls e n →
      Derives (.binary BinaryOp.levels) ls e n
  | sign {op : UnaryOp} {l : Lexeme} {ls : List Lexeme} {e : Expr} {n : Nat} : l.IsOp op.text →
      Derives .unary ls e n → Derives .unary (l :: ls) (.unary op e) (n + 1)
  | unsigned {ls : List Lexeme} {e : Expr} {n : Nat} : Derives .postfixed ls e n →
      Derives .unary ls e n
  | bare {ls : List Lexeme} {e : Expr} {n : Nat} : Derives .primary ls e n →
      Derives .postfixed ls e n
  | member {point name : Lexeme} {ls : List Lexeme} {target : Expr} {n : Nat} :
      Derives .postfixed ls target n → point.IsOp "." → name.kind = .name →
      Derives .postfixed (ls ++ [point, name]) (.member target (String.ofList name.text)) n
  | callEmpty {point name opening closing : Lexeme} {ls : List Lexeme} {target : Expr} {n : Nat} :
      Derives .postfixed ls target n → point.IsOp "." → name.kind = .name → opening.IsOp "(" →
      closing.IsOp ")" → Derives .postfixed (ls ++ [point, name, opening, closing])
        (.call target (String.ofList name.text) []) n
  | call {point name opening closing : Lexeme} {ls inner : List Lexeme} {target : Expr}
      {args : List Expr} {n m : Nat} : Derives .postfixed ls target n → point.IsOp "." →
      name.kind = .name → opening.IsOp "(" → DerivesAll inner args m → closing.IsOp ")" →
      Derives .postfixed (ls ++ point :: name :: opening :: inner ++ [closing])
        (.call target (String.ofList name.text) args) (max n (m + 1))
  | number {l : Lexeme} {v : Value} : l.kind = .number → Denotes l.text v →
      Derives .primary [l] (.literal v) 1
  | text {l : Lexeme} : l.kind = .text →
      Derives .primary [l] (.literal (.text (String.ofList (unescape (inside l.text))))) 1
  | field {l : Lexeme} : l.kind = .field →
      Derives .primary [l] (.field (String.ofList l.path)) 1
  | word {l : Lexeme} {v : Value} : l.kind = .name → (String.ofList l.text, v) ∈ words →
      Derives .primary [l] (.literal v) 1
  | root {l : Lexeme} {r : Root} : l.kind = .name → String.ofList l.text = r.text →
      Derives .primary [l] (.root r) 1
  | parentheses {opening closing : Lexeme} {ls : List Lexeme} {e : Expr} {n : Nat} :
      opening.IsOp "(" → Derives (.binary 0) ls e n → closing.IsOp ")" →
      Derives .primary (opening :: ls ++ [closing]) e (n + 1)
/-- The lexemes are derived as expressions with commas between them, at least one, and the greatest
nesting is that of the derivation. -/
inductive DerivesAll : List Lexeme → List Expr → Nat → Prop
  | last {ls : List Lexeme} {e : Expr} {n : Nat} : Derives (.binary 0) ls e n →
      DerivesAll ls [e] n
  | cons {comma : Lexeme} {ls rest : List Lexeme} {e : Expr} {es : List Expr} {n m : Nat} :
      Derives (.binary 0) ls e n → comma.IsOp "," → DerivesAll rest es m →
      DerivesAll (ls ++ comma :: rest) (e :: es) (max n m)
end

/-! ## Operators -/

theorem passOp?_cons {l : Lexeme} {o : String} (h : l.IsOp o) (o' : String) (ls : List Lexeme) :
    passOp? o' (l :: ls) = if o = o' then some ls else none := by
  simp [passOp?, h.1, h.2]

theorem passOp?_eq_some {o : String} {ls rest : List Lexeme} :
    passOp? o ls = some rest ↔ ∃ l, ls = l :: rest ∧ l.IsOp o := by
  constructor
  · intro h
    cases ls with
    | nil => cases h
    | cons l ls =>
        simp only [passOp?] at h
        split at h
        next hop =>
          cases h
          exact ⟨l, rfl, by simpa [Lexeme.IsOp] using hop⟩
        next => cases h
  · rintro ⟨l, rfl, hop⟩
    rw [passOp?_cons hop, if_pos rfl]

theorem of_expect {o : String} {ls rest : List Lexeme} (h : expect o ls = .ok rest) :
    ∃ l, ls = l :: rest ∧ l.IsOp o := by
  unfold expect at h
  split at h
  next hpass =>
    cases h
    exact passOp?_eq_some.mp hpass
  next => cases h

theorem passOp?_of_kind {l : Lexeme} (h : l.kind ≠ .op) (o : String) (ls : List Lexeme) :
    passOp? o (l :: ls) = none := by
  simp [passOp?, h]

theorem level_lt {level : Nat} {op : BinaryOp} (h : op ∈ BinaryOp.atLevel level) :
    level < BinaryOp.levels := by
  match level with
  | 0 | 1 | 2 | 3 | 4 | 5 => decide
  | _ + 6 => cases h

theorem passBinary?_of_le {level : Nat} (h : BinaryOp.levels ≤ level) (ls : List Lexeme) :
    passBinary? level ls = none := by
  obtain ⟨k, rfl⟩ := Nat.exists_eq_add_of_le' h
  rfl

/-- No two operators are written alike. -/
theorem find_operator : ∀ level < BinaryOp.levels, ∀ op ∈ BinaryOp.atLevel level,
    ∀ level' < BinaryOp.levels, (BinaryOp.atLevel level').findSome?
      (fun o => if op.text = o.text then some o else none) =
        if level' = level then some op else none := by
  decide

/-- An operator of a level is read at this level, and at no other. -/
theorem passBinary?_cons {level : Nat} {op : BinaryOp} {l : Lexeme}
    (hop : op ∈ BinaryOp.atLevel level) (h : l.IsOp op.text) (level' : Nat) (ls : List Lexeme) :
    passBinary? level' (l :: ls) = if level' = level then some (op, ls) else none := by
  by_cases hlevel : level' < BinaryOp.levels
  · have hpass : ∀ o : BinaryOp, (passOp? o.text (l :: ls)).map (o, ·) =
        (if op.text = o.text then some o else none).map (·, ls) := by
      intro o
      rw [passOp?_cons h]
      split <;> rfl
    have hfind :=
      congrArg (Option.map (·, ls)) (find_operator level (level_lt hop) op hop level' hlevel)
    rw [List.map_findSome?, Function.comp_def] at hfind
    simp only [passBinary?, hpass]
    rw [hfind]
    split <;> rfl
  · rw [passBinary?_of_le (Nat.le_of_not_lt hlevel), if_neg]
    rintro rfl
    exact hlevel (level_lt hop)

theorem passBinary?_eq_some {level : Nat} {op : BinaryOp} {ls rest : List Lexeme}
    (h : passBinary? level ls = some (op, rest)) :
    op ∈ BinaryOp.atLevel level ∧ ∃ l, ls = l :: rest ∧ l.IsOp op.text := by
  obtain ⟨o, hmem, ho⟩ := List.exists_of_findSome?_eq_some h
  obtain ⟨rest', hpass, heq⟩ := Option.map_eq_some_iff.mp ho
  cases heq
  exact ⟨hmem, passOp?_eq_some.mp hpass⟩

theorem passUnary?_cons {op : UnaryOp} {l : Lexeme} (h : l.IsOp op.text) (ls : List Lexeme) :
    passUnary? (l :: ls) = some (op, ls) := by
  cases op <;> simp [passUnary?, UnaryOp.all, passOp?_cons h, UnaryOp.text]

theorem passUnary?_eq_some {op : UnaryOp} {ls rest : List Lexeme}
    (h : passUnary? ls = some (op, rest)) : ∃ l, ls = l :: rest ∧ l.IsOp op.text := by
  obtain ⟨o, -, ho⟩ := List.exists_of_findSome?_eq_some h
  obtain ⟨rest', hpass, heq⟩ := Option.map_eq_some_iff.mp ho
  cases heq
  exact passOp?_eq_some.mp hpass

/-! ## Names -/

theorem keyword?_eq_some {s : String} {v : Value} : keyword? s = some v ↔ (s, v) ∈ words := by
  constructor
  · intro h
    unfold keyword? at h
    split at h
    next hs =>
      cases h
      simp [words, eq_of_beq hs]
    next =>
      split at h
      next hs =>
        cases h
        simp [words, eq_of_beq hs]
      next =>
        split at h
        next hs =>
          cases h
          simpa [words] using hs
        next => cases h
  · intro h
    simp only [words, List.mem_cons, Prod.mk.injEq, List.not_mem_nil, or_false] at h
    rcases h with ⟨rfl, rfl⟩ | ⟨rfl, rfl⟩ | ⟨rfl, rfl⟩ | ⟨rfl, rfl⟩ <;> rfl

theorem ofText?_eq_some {s : String} {r : Root} : Root.ofText? s = some r ↔ s = r.text := by
  constructor
  · intro h
    have hr : (r.text == s) = true := List.find?_some (p := fun r : Root => r.text == s) h
    exact (eq_of_beq hr).symm
  · rintro rfl
    cases r <;> decide

/-- A name is a word with a value or a root. -/
theorem name_eq_ok {l : Lexeme} {e : Expr} : Parser.name l = .ok e ↔
    (∃ v, (String.ofList l.text, v) ∈ words ∧ e = .literal v) ∨
      ∃ r : Root, String.ofList l.text = r.text ∧ e = .root r := by
  simp only [Parser.name]
  cases hword : keyword? (String.ofList l.text) with
  | some v =>
      have hmem := keyword?_eq_some.mp hword
      constructor
      · intro h
        cases h
        exact .inl ⟨v, hmem, rfl⟩
      · rintro (⟨w, hw, rfl⟩ | ⟨r, hr, rfl⟩)
        · rw [keyword?_eq_some.mpr hw] at hword
          cases hword
          rfl
        · rw [hr] at hword
          cases r <;> cases hword
  | none =>
      have hnot : ∀ v, (String.ofList l.text, v) ∉ words := by
        intro v hv
        rw [keyword?_eq_some.mpr hv] at hword
        cases hword
      simp only [hnot, false_and, exists_false, false_or]
      cases hroot : Root.ofText? (String.ofList l.text) with
      | some r =>
          simp only [← ofText?_eq_some, hroot]
          simp [eq_comm]
      | none =>
          simp only [← ofText?_eq_some, hroot]
          simp

/-! ## What is read is derived -/

/-- Every number among the lexemes can be read. -/
def Readable (ls : List Lexeme) : Prop :=
  ∀ l ∈ ls, l.kind = .number →
    (∃ v, Denotes l.text v) ∧ (l.text.all Text.isDigit = true → l.text.length ≤ Number.digitLimit)

theorem Readable.behind (used : List Lexeme) {rest : List Lexeme} (h : Readable (used ++ rest)) :
    Readable rest :=
  fun l hl => h l (List.mem_append_right used hl)

/-- From `ls` on, up to `rest`, an expression is read that is derived together with the lexemes
`before`; its nesting is at most `bound`. -/
def Reads (r : Rule) (bound : Nat) (before ls : List Lexeme) (e : Expr) (rest : List Lexeme) :
    Prop :=
  ∃ used n, ls = used ++ rest ∧ Derives r (before ++ used) e n ∧ n ≤ bound

/-- As `Reads`, for the arguments of a call. -/
def ReadsAll (bound : Nat) (ls : List Lexeme) (es : List Expr) (rest : List Lexeme) : Prop :=
  ∃ used n, ls = used ++ rest ∧ DerivesAll used es n ∧ n ≤ bound

/-- With so much fuel, what every rule reads is derived. -/
structure Sound (fuel : Nat) : Prop where
  expr : ∀ {room ls e rest}, Readable ls → Parser.expr fuel room ls = .ok (e, rest) →
    Reads (.binary 0) room [] ls e rest
  binary : ∀ {room level ls e rest}, level ≤ BinaryOp.levels → Readable ls →
    Parser.binary fuel room level ls = .ok (e, rest) →
      Reads (.binary level) (room + 1) [] ls e rest
  moreOperands : ∀ {room level left ls e rest before n}, level < BinaryOp.levels → Readable ls →
    Derives (.binary level) before left n → n ≤ room + 1 →
    Parser.moreOperands fuel room level left ls = .ok (e, rest) →
      Reads (.binary level) (room + 1) before ls e rest
  unary : ∀ {room ls e rest}, Readable ls → Parser.unary fuel room ls = .ok (e, rest) →
    Reads .unary (room + 1) [] ls e rest
  postfixed : ∀ {room ls e rest}, Readable ls → Parser.postfixed fuel room ls = .ok (e, rest) →
    Reads .postfixed (room + 1) [] ls e rest
  moreSuffixes : ∀ {room target ls e rest before n}, Readable ls →
    Derives .postfixed before target n → n ≤ room + 1 →
    Parser.moreSuffixes fuel room target ls = .ok (e, rest) →
      Reads .postfixed (room + 1) before ls e rest
  arguments : ∀ {room ls es rest}, Readable ls → Parser.arguments fuel room ls = .ok (es, rest) →
    (∃ l, ls = l :: rest ∧ l.IsOp ")" ∧ es = []) ∨
      ∃ l, l.IsOp ")" ∧ ReadsAll room ls es (l :: rest)
  moreArguments : ∀ {room ls es rest}, Readable ls →
    Parser.moreArguments fuel room ls = .ok (es, rest) →
      ∃ l, l.IsOp ")" ∧ ReadsAll room ls es (l :: rest)
  primary : ∀ {room ls e rest}, Readable ls → Parser.primary fuel room ls = .ok (e, rest) →
    Reads .primary (room + 1) [] ls e rest

/-- Without fuel every rule refuses. -/
theorem Sound.zero : Sound 0 := by
  constructor
  all_goals
    intros
    rename_i h
    simp only [Parser.expr, Parser.binary, Parser.moreOperands, Parser.unary, Parser.postfixed,
      Parser.moreSuffixes, Parser.arguments, Parser.moreArguments, Parser.primary,
      Parser.refuse] at h
    cases h

namespace Sound

variable {fuel room level : Nat} {ls rest : List Lexeme} {e : Expr} (ih : Sound fuel)

include ih

theorem succ_expr (hls : Readable ls) (h : Parser.expr (fuel + 1) room ls = .ok (e, rest)) :
    Reads (.binary 0) room [] ls e rest := by
  cases room with
  | zero =>
      simp only [Parser.expr] at h
      cases h
  | succ room =>
      simp only [Parser.expr] at h
      exact ih.binary (Nat.zero_le _) hls h

theorem succ_binary (hlevel : level ≤ BinaryOp.levels) (hls : Readable ls)
    (h : Parser.binary (fuel + 1) room level ls = .ok (e, rest)) :
    Reads (.binary level) (room + 1) [] ls e rest := by
  simp only [Parser.binary] at h
  split at h
  next hlt =>
    obtain ⟨⟨left, mid⟩, hleft, hmore⟩ := bind_eq_ok.mp h
    obtain ⟨used, n, rfl, hderives, hn⟩ := ih.binary hlt hls hleft
    obtain ⟨used', m, rfl, hderives', hm⟩ :=
      ih.moreOperands hlt (hls.behind _) (.operand hlt hderives) hn hmore
    exact ⟨used ++ used', m, (List.append_assoc ..).symm, hderives', hm⟩
  next hlt =>
    obtain rfl := Nat.le_antisymm hlevel (Nat.le_of_not_lt hlt)
    obtain ⟨used, n, rfl, hderives, hn⟩ := ih.unary hls h
    exact ⟨used, n, rfl, .factor hderives, hn⟩

theorem succ_moreOperands {left : Expr} {before : List Lexeme} {n : Nat}
    (hlt : level < BinaryOp.levels) (hls : Readable ls)
    (hleft : Derives (.binary level) before left n) (hn : n ≤ room + 1)
    (h : Parser.moreOperands (fuel + 1) room level left ls = .ok (e, rest)) :
    Reads (.binary level) (room + 1) before ls e rest := by
  simp only [Parser.moreOperands] at h
  split at h
  · cases h
    exact ⟨[], n, rfl, by rwa [List.append_nil], hn⟩
  next op after hpass =>
    obtain ⟨hop, l, rfl, hl⟩ := passBinary?_eq_some hpass
    have hafter : Readable after := Readable.behind [l] hls
    obtain ⟨⟨right, mid⟩, hright, hmore⟩ := bind_eq_ok.mp h
    obtain ⟨used, m, rfl, hderives, hm⟩ := ih.binary hlt hafter hright
    obtain ⟨used', k, rfl, hderives', hk⟩ :=
      ih.moreOperands hlt (hafter.behind _) (.operators hleft hop hl hderives) (by omega) hmore
    refine ⟨l :: used ++ used', k, by simp, ?_, hk⟩
    simpa using hderives'

theorem succ_unary (hls : Readable ls) (h : Parser.unary (fuel + 1) room ls = .ok (e, rest)) :
    Reads .unary (room + 1) [] ls e rest := by
  simp only [Parser.unary] at h
  split at h
  · obtain ⟨used, n, rfl, hderives, hn⟩ := ih.postfixed hls h
    exact ⟨used, n, rfl, .unsigned hderives, hn⟩
  next op after hpass =>
    obtain ⟨l, rfl, hl⟩ := passUnary?_eq_some hpass
    cases room with
    | zero => cases h
    | succ room =>
        obtain ⟨⟨operand, mid⟩, hoperand, hdone⟩ := bind_eq_ok.mp h
        cases hdone
        obtain ⟨used, n, rfl, hderives, hn⟩ :=
          ih.unary (Readable.behind [l] hls) hoperand
        exact ⟨l :: used, n + 1, rfl, .sign hl hderives, Nat.succ_le_succ hn⟩

theorem succ_postfixed (hls : Readable ls)
    (h : Parser.postfixed (fuel + 1) room ls = .ok (e, rest)) :
    Reads .postfixed (room + 1) [] ls e rest := by
  simp only [Parser.postfixed] at h
  obtain ⟨⟨target, mid⟩, htarget, hmore⟩ := bind_eq_ok.mp h
  obtain ⟨used, n, rfl, hderives, hn⟩ := ih.primary hls htarget
  obtain ⟨used', m, rfl, hderives', hm⟩ := ih.moreSuffixes (hls.behind _) (.bare hderives) hn hmore
  exact ⟨used ++ used', m, (List.append_assoc ..).symm, hderives', hm⟩

theorem succ_moreSuffixes {target : Expr} {before : List Lexeme} {n : Nat} (hls : Readable ls)
    (htarget : Derives .postfixed before target n) (hn : n ≤ room + 1)
    (h : Parser.moreSuffixes (fuel + 1) room target ls = .ok (e, rest)) :
    Reads .postfixed (room + 1) before ls e rest := by
  simp only [Parser.moreSuffixes] at h
  split at h
  · cases h
    exact ⟨[], n, rfl, by rwa [List.append_nil], hn⟩
  next after hpass =>
    obtain ⟨point, rfl, hpoint⟩ := passOp?_eq_some.mp hpass
    split at h
    next hname =>
      cases after with
      | nil => exact absurd hname (by decide)
      | cons name behind =>
          have hkind : name.kind = .name := by simpa [peek] using hname
          have hbehind : Readable behind := Readable.behind [point, name] hls
          simp only [peek, List.drop_succ_cons, List.drop_zero] at h
          split at h
          · obtain ⟨used, m, rfl, hderives, hm⟩ :=
              ih.moreSuffixes hbehind (.member htarget hpoint hkind) hn h
            refine ⟨point :: name :: used, m, rfl, ?_, hm⟩
            simpa using hderives
          next inner hopen =>
            obtain ⟨opening, rfl, hopening⟩ := passOp?_eq_some.mp hopen
            have hinner : Readable inner := Readable.behind [opening] hbehind
            obtain ⟨⟨args, mid⟩, hargs, hmore⟩ := bind_eq_ok.mp h
            -- A call without arguments is a rule of its own.
            rcases ih.arguments hinner hargs with
              ⟨closing, rfl, hclosing, rfl⟩ | ⟨closing, hclosing, used, m, rfl, hall, hm⟩
            · have hmid : Readable mid := Readable.behind [closing] hinner
              obtain ⟨used', k, rfl, hderives, hk⟩ := ih.moreSuffixes hmid
                (.callEmpty htarget hpoint hkind hopening hclosing) hn hmore
              refine ⟨point :: name :: opening :: closing :: used', k, rfl, ?_, hk⟩
              simpa using hderives
            · have hmid : Readable mid := Readable.behind [closing] (hinner.behind _)
              obtain ⟨used', k, rfl, hderives, hk⟩ := ih.moreSuffixes hmid
                (.call htarget hpoint hkind hopening hall hclosing) (by omega) hmore
              refine ⟨point :: name :: opening :: used ++ closing :: used', k, by simp, ?_, hk⟩
              simpa using hderives
    next => cases h

theorem succ_moreArguments {es : List Expr} (hls : Readable ls)
    (h : Parser.moreArguments (fuel + 1) room ls = .ok (es, rest)) :
    ∃ l, l.IsOp ")" ∧ ReadsAll room ls es (l :: rest) := by
  simp only [Parser.moreArguments] at h
  obtain ⟨⟨arg, mid⟩, harg, hnext⟩ := bind_eq_ok.mp h
  obtain ⟨used, n, rfl, hderives, hn⟩ := ih.expr hls harg
  split at hnext
  next after hclose =>
    cases hnext
    obtain ⟨l, rfl, hl⟩ := passOp?_eq_some.mp hclose
    exact ⟨l, hl, used, n, rfl, .last hderives, hn⟩
  next =>
    obtain ⟨after, hexpect, hmore⟩ := bind_eq_ok.mp hnext
    obtain ⟨⟨args, behind⟩, hargs, hdone⟩ := bind_eq_ok.mp hmore
    cases hdone
    obtain ⟨comma, rfl, hcomma⟩ := of_expect hexpect
    obtain ⟨l, hl, used', m, rfl, hall, hm⟩ :=
      ih.moreArguments (Readable.behind [comma] (hls.behind _)) hargs
    exact ⟨l, hl, used ++ comma :: used', max n m, by simp, .cons hderives hcomma hall, by omega⟩

theorem succ_arguments {es : List Expr} (hls : Readable ls)
    (h : Parser.arguments (fuel + 1) room ls = .ok (es, rest)) :
    (∃ l, ls = l :: rest ∧ l.IsOp ")" ∧ es = []) ∨
      ∃ l, l.IsOp ")" ∧ ReadsAll room ls es (l :: rest) := by
  simp only [Parser.arguments] at h
  split at h
  next hclose =>
    cases h
    obtain ⟨l, rfl, hl⟩ := passOp?_eq_some.mp hclose
    exact .inl ⟨l, rfl, hl, rfl⟩
  next => exact .inr (ih.moreArguments hls h)

/-- Where an operator or the end is next, an operand is an expression in parentheses. -/
theorem of_parentheses (hls : Readable ls)
    (h : (match passOp? "(" ls with
      | none => refuse .unexpectedToken ls
      | some after => do
          let (inner, after) ← Parser.expr fuel room after
          let after ← expect ")" after
          return (inner, after)) = .ok (e, rest)) : Reads .primary (room + 1) [] ls e rest := by
  split at h
  · cases h
  next after hopen =>
    obtain ⟨opening, rfl, hopening⟩ := passOp?_eq_some.mp hopen
    obtain ⟨⟨inner, mid⟩, hinner, hnext⟩ := bind_eq_ok.mp h
    obtain ⟨last, hclose, hdone⟩ := bind_eq_ok.mp hnext
    cases hdone
    obtain ⟨used, n, rfl, hderives, hn⟩ :=
      ih.expr (Readable.behind [opening] hls) hinner
    obtain ⟨closing, rfl, hclosing⟩ := of_expect hclose
    exact ⟨opening :: used ++ [closing], n + 1, by simp, .parentheses hopening hderives hclosing,
      Nat.succ_le_succ hn⟩

theorem succ_primary (hls : Readable ls) (h : Parser.primary (fuel + 1) room ls = .ok (e, rest)) :
    Reads .primary (room + 1) [] ls e rest := by
  simp only [Parser.primary] at h
  cases ls with
  | nil =>
      simp only [peek, passOp?, refuse] at h
      cases h
  | cons l ls =>
      cases hkind : l.kind with
      | number =>
          simp only [peek, hkind] at h
          obtain ⟨v, hread, hdone⟩ := bind_eq_ok.mp h
          cases hdone
          obtain ⟨hnumeral, short⟩ := hls l List.mem_cons_self hkind
          exact ⟨[l], 1, rfl, .number hkind ((number_eq_ok_iff hnumeral short).mp hread),
            Nat.succ_pos _⟩
      | text =>
          simp only [peek, hkind] at h
          cases h
          exact ⟨[l], 1, rfl, .text hkind, Nat.succ_pos _⟩
      | field =>
          simp only [peek, hkind] at h
          cases h
          exact ⟨[l], 1, rfl, .field hkind, Nat.succ_pos _⟩
      | name =>
          simp only [peek, hkind] at h
          obtain ⟨e', hname, hdone⟩ := bind_eq_ok.mp h
          cases hdone
          rcases name_eq_ok.mp hname with ⟨v, hword, rfl⟩ | ⟨r, hroot, rfl⟩
          · exact ⟨[l], 1, rfl, .word hkind hword, Nat.succ_pos _⟩
          · exact ⟨[l], 1, rfl, .root hkind hroot, Nat.succ_pos _⟩
      | op =>
          simp only [peek, hkind] at h
          exact ih.of_parentheses hls h
      | stop =>
          simp only [peek, hkind] at h
          exact ih.of_parentheses hls h

end Sound

theorem sound : ∀ fuel, Sound fuel
  | 0 => .zero
  | fuel + 1 => by
      -- Every rule calls the others with one fuel less, so they are proved together.
      have ih := sound fuel
      exact ⟨ih.succ_expr, ih.succ_binary, ih.succ_moreOperands, ih.succ_unary, ih.succ_postfixed,
        ih.succ_moreSuffixes, ih.succ_arguments, ih.succ_moreArguments, ih.succ_primary⟩

/-! ## What is derived is read -/

/-- How an expression of a rule begins, when it begins with an operator. -/
def Rule.openings : Rule → List String
  | .binary _ | .unary => ["(", "!", "-"]
  | .postfixed | .primary => ["("]

theorem UnaryOp.text_mem_openings (op : UnaryOp) : op.text ∈ Rule.unary.openings := by
  cases op <;> decide

/-- No lexemes are no expression, and an expression that begins with an operator begins with one of
these. -/
theorem Derives.head : ∀ {r : Rule} {ls : List Lexeme} {e : Expr} {n : Nat}, Derives r ls e n →
    ∃ l tail, ls = l :: tail ∧ (l.kind = .op → String.ofList l.text ∈ r.openings)
  | _, _, _, _, .operand _ h => h.head
  | _, _, _, _, .operators h _ _ _ => by
      obtain ⟨l, tail, rfl, hl⟩ := h.head
      exact ⟨l, _, rfl, hl⟩
  | _, _, _, _, .factor h => h.head
  | _, _, _, _, .sign hl _ => by
      refine ⟨_, _, rfl, fun _ => ?_⟩
      rw [hl.2]
      exact UnaryOp.text_mem_openings _
  | _, _, _, _, .unsigned h => by
      obtain ⟨l, tail, rfl, hl⟩ := h.head
      exact ⟨l, tail, rfl, fun hop => List.mem_of_mem_take (i := 1) (hl hop)⟩
  | _, _, _, _, .bare h => h.head
  | _, _, _, _, .member h _ _ => by
      obtain ⟨l, tail, rfl, hl⟩ := h.head
      exact ⟨l, _, rfl, hl⟩
  | _, _, _, _, .callEmpty h _ _ _ _ => by
      obtain ⟨l, tail, rfl, hl⟩ := h.head
      exact ⟨l, _, rfl, hl⟩
  | _, _, _, _, .call h _ _ _ _ _ => by
      obtain ⟨l, tail, rfl, hl⟩ := h.head
      exact ⟨l, _, rfl, hl⟩
  | _, _, _, _, .number hkind _ => ⟨_, _, rfl, fun hop => nomatch hkind.symm.trans hop⟩
  | _, _, _, _, .text hkind => ⟨_, _, rfl, fun hop => nomatch hkind.symm.trans hop⟩
  | _, _, _, _, .field hkind => ⟨_, _, rfl, fun hop => nomatch hkind.symm.trans hop⟩
  | _, _, _, _, .word hkind _ => ⟨_, _, rfl, fun hop => nomatch hkind.symm.trans hop⟩
  | _, _, _, _, .root hkind _ => ⟨_, _, rfl, fun hop => nomatch hkind.symm.trans hop⟩
  | _, _, _, _, .parentheses hl _ _ => by
      refine ⟨_, _, rfl, fun _ => ?_⟩
      rw [hl.2]
      decide

theorem DerivesAll.head {ls : List Lexeme} {es : List Expr} {n : Nat} (h : DerivesAll ls es n) :
    ∃ l tail, ls = l :: tail ∧
      (l.kind = .op → String.ofList l.text ∈ (Rule.binary 0).openings) := by
  cases h with
  | last h => exact h.head
  | cons h _ _ =>
      obtain ⟨l, tail, rfl, hl⟩ := h.head
      exact ⟨l, _, rfl, hl⟩

theorem Derives.nesting_pos : ∀ {r : Rule} {ls : List Lexeme} {e : Expr} {n : Nat},
    Derives r ls e n → 0 < n
  | _, _, _, _, .operand _ h => h.nesting_pos
  | _, _, _, _, .operators h _ _ _ => Nat.lt_of_lt_of_le h.nesting_pos (Nat.le_max_left _ _)
  | _, _, _, _, .factor h => h.nesting_pos
  | _, _, _, _, .sign _ _ => Nat.succ_pos _
  | _, _, _, _, .unsigned h => h.nesting_pos
  | _, _, _, _, .bare h => h.nesting_pos
  | _, _, _, _, .member h _ _ => h.nesting_pos
  | _, _, _, _, .callEmpty h _ _ _ _ => h.nesting_pos
  | _, _, _, _, .call h _ _ _ _ _ => Nat.lt_of_lt_of_le h.nesting_pos (Nat.le_max_left _ _)
  | _, _, _, _, .number _ _ => Nat.one_pos
  | _, _, _, _, .text _ => Nat.one_pos
  | _, _, _, _, .field _ => Nat.one_pos
  | _, _, _, _, .word _ _ => Nat.one_pos
  | _, _, _, _, .root _ _ => Nat.one_pos
  | _, _, _, _, .parentheses _ _ _ => Nat.succ_pos _

/-- What comes next does not continue an operand of a level: it is no operator of this level or a
higher one, no point and no parenthesis that opens. -/
structure Stops (level : Nat) (rest : List Lexeme) : Prop where
  operator : ∀ level', level ≤ level' → passBinary? level' rest = none
  point : passOp? "." rest = none
  opening : passOp? "(" rest = none

theorem Stops.mono {level level' : Nat} {rest : List Lexeme} (h : Stops level rest)
    (hle : level ≤ level') : Stops level' rest :=
  ⟨fun k hk => h.operator k (Nat.le_trans hle hk), h.point, h.opening⟩

/-- The other operators are no binary ones. -/
theorem BinaryOp.text_ne (op : BinaryOp) {o : String} (h : o ∈ [".", "(", ")", ","]) :
    op.text ≠ o := by
  have hop : op.text ∉ [".", "(", ")", ","] := by
    rcases op with _ | _ | _ | _ | _ | _ | c | a
    all_goals first | decide | (cases c <;> decide) | (cases a <;> decide)
  exact fun heq => hop (heq ▸ h)

/-- Before an operator of a level the operands of the higher levels end. -/
theorem Stops.of_operator {level : Nat} {op : BinaryOp} {l : Lexeme}
    (hop : op ∈ BinaryOp.atLevel level) (hl : l.IsOp op.text) (rest : List Lexeme) :
    Stops (level + 1) (l :: rest) where
  operator := fun level' hle => by
    rw [passBinary?_cons hop hl, if_neg (by omega)]
  point := by
    rw [passOp?_cons hl, if_neg (op.text_ne (by decide))]
  opening := by
    rw [passOp?_cons hl, if_neg (op.text_ne (by decide))]

/-- Before a closing parenthesis and a comma every operand ends. -/
theorem Stops.of_isOp {l : Lexeme} {o : String} (hl : l.IsOp o) (ho : o = ")" ∨ o = ",")
    (rest : List Lexeme) : Stops 0 (l :: rest) where
  operator := fun level _ => by
    refine List.findSome?_eq_none_iff.mpr fun op _ => ?_
    have hne : op.text ≠ o := op.text_ne (by rcases ho with rfl | rfl <;> decide)
    rw [passOp?_cons hl, if_neg hne.symm, Option.map_none]
  point := by
    rw [passOp?_cons hl, if_neg]
    rcases ho with rfl | rfl <;> decide
  opening := by
    rw [passOp?_cons hl, if_neg]
    rcases ho with rfl | rfl <;> decide

theorem Stops.of_kind {l : Lexeme} (hl : l.kind ≠ .op) (rest : List Lexeme) :
    Stops 0 (l :: rest) where
  operator := fun level _ => by
    refine List.findSome?_eq_none_iff.mpr fun op _ => ?_
    rw [passOp?_of_kind hl, Option.map_none]
  point := passOp?_of_kind hl "." rest
  opening := passOp?_of_kind hl "(" rest

/-- What a level goes on with when it has an operand; above the binary levels there is nothing to go
on with. -/
def goOn (fuel room level : Nat) (e : Expr) (rest : List Lexeme) :
    Except Failure (Expr × List Lexeme) :=
  if level < BinaryOp.levels then moreOperands fuel room level e rest else .ok (e, rest)

/-- Where the operators of a level end it goes on with nothing. -/
theorem goOn_of_stops {fuel room level : Nat} {e : Expr} {rest : List Lexeme} (hfuel : 0 < fuel)
    (h : Stops level rest) : goOn fuel room level e rest = .ok (e, rest) := by
  unfold goOn
  split
  · obtain ⟨fuel, rfl⟩ := Nat.exists_eq_succ_of_ne_zero (Nat.pos_iff_ne_zero.mp hfuel)
    simp only [moreOperands, h.operator level (Nat.le_refl _)]
  · rfl

/-- What is derived by a rule is read from the lexemes, whatever follows, as long as nothing there
continues it.  A level goes on with the operators that follow and a postfix expression with its
suffixes, so of these two only what is read before is said.  Twelve calls for each lexeme and a few
to come down to an operand are enough. -/
def Completes : Rule → List Lexeme → Expr → Nat → Prop
  | .binary level, used, e, n => ∀ fuel room rest, n ≤ room + 1 →
      12 * used.length + (9 - level) ≤ fuel → Stops (level + 1) rest →
      ∃ left, fuel ≤ left + 2 * used.length ∧
        Parser.binary fuel room level (used ++ rest) = goOn left room level e rest
  | .unary, used, e, n => ∀ fuel room rest, n ≤ room + 1 → 12 * used.length + 2 ≤ fuel →
      Stops (BinaryOp.levels + 1) rest →
      Parser.unary fuel room (used ++ rest) = .ok (e, rest)
  | .postfixed, used, e, n => ∀ fuel room rest, n ≤ room + 1 → 12 * used.length + 1 ≤ fuel →
      passOp? "(" rest = none → ∃ left, fuel ≤ left + 2 * used.length ∧
        Parser.postfixed fuel room (used ++ rest) = moreSuffixes left room e rest
  | .primary, used, e, n => ∀ fuel room rest, n ≤ room + 1 → 12 * used.length ≤ fuel →
      Parser.primary fuel room (used ++ rest) = .ok (e, rest)

/-- As `Completes`, for the arguments of a call up to the parenthesis that closes. -/
def CompletesAll (used : List Lexeme) (es : List Expr) (n : Nat) : Prop :=
  ∀ fuel room closing rest, n ≤ room → 12 * used.length + 11 ≤ fuel → closing.IsOp ")" →
    moreArguments fuel room (used ++ closing :: rest) = .ok (es, rest)

/-- An expression of a rule that has no signs does not begin with one. -/
theorem passUnary?_eq_none {l : Lexeme}
    (h : l.kind = .op → String.ofList l.text ∈ Rule.postfixed.openings) (ls : List Lexeme) :
    passUnary? (l :: ls) = none := by
  cases hpass : passUnary? (l :: ls) with
  | none => rfl
  | some read =>
      obtain ⟨op, rest⟩ := read
      obtain ⟨l', heq, hl⟩ := passUnary?_eq_some hpass
      cases heq
      have hopening := h hl.1
      rw [hl.2] at hopening
      cases op <;> exact absurd hopening (by decide)

/-- An expression does not begin with the parenthesis that closes. -/
theorem passOp?_closing {l : Lexeme}
    (h : l.kind = .op → String.ofList l.text ∈ (Rule.binary 0).openings) (ls : List Lexeme) :
    passOp? ")" (l :: ls) = none := by
  cases hpass : passOp? ")" (l :: ls) with
  | none => rfl
  | some rest =>
      obtain ⟨l', heq, hl⟩ := passOp?_eq_some.mp hpass
      cases heq
      have hopening := h hl.1
      rw [hl.2] at hopening
      exact absurd hopening (by decide)

theorem expect_cons {l : Lexeme} {o : String} (h : l.IsOp o) (ls : List Lexeme) :
    expect o (l :: ls) = .ok ls := by
  rw [expect, passOp?_cons h, if_pos rfl]

/-- After a target, a point and a name, the arguments are read and the chain goes on. -/
theorem moreSuffixes_call {point name opening : Lexeme} {target : Expr} {args : List Expr}
    {inner rest : List Lexeme} {fuel room : Nat} (hpoint : point.IsOp ".")
    (hname : name.kind = .name) (hopening : opening.IsOp "(")
    (hargs : arguments fuel room inner = .ok (args, rest)) :
    moreSuffixes (fuel + 1) room target (point :: name :: opening :: inner) =
      moreSuffixes fuel room (.call target (String.ofList name.text) args) rest := by
  rw [moreSuffixes, passOp?_cons hpoint, if_pos rfl]
  simp only [peek, hname, BEq.rfl, if_true, List.drop_succ_cons, List.drop_zero,
    passOp?_cons hopening, hargs]
  rfl

namespace Completes

variable {ls rs : List Lexeme} {e : Expr} {n m level : Nat}

/-- Where the operators of a level end, its operand is all that is read. -/
theorem binary_ok (h : Completes (.binary level) ls e n) (fuel room : Nat) (rest : List Lexeme)
    (hlength : 0 < ls.length) (hn : n ≤ room + 1) (hfuel : 12 * ls.length + (9 - level) ≤ fuel)
    (hstops : Stops level rest) :
    Parser.binary fuel room level (ls ++ rest) = .ok (e, rest) := by
  obtain ⟨left, hleft, hread⟩ := h _ _ _ hn hfuel (hstops.mono (Nat.le_succ _))
  rw [hread]
  exact goOn_of_stops (by omega) hstops

theorem expr_ok (h : Completes (.binary 0) ls e n) (fuel room : Nat) (rest : List Lexeme)
    (hlength : 0 < ls.length) (hpos : 0 < n) (hn : n ≤ room) (hfuel : 12 * ls.length + 10 ≤ fuel)
    (hstops : Stops 0 rest) : Parser.expr fuel room (ls ++ rest) = .ok (e, rest) := by
  obtain ⟨fuel, rfl⟩ : ∃ k, fuel = k + 1 := ⟨fuel - 1, by omega⟩
  obtain ⟨room, rfl⟩ : ∃ k, room = k + 1 := ⟨room - 1, by omega⟩
  rw [Parser.expr]
  exact h.binary_ok _ _ _ hlength hn (by omega) hstops

theorem operand (hlt : level < BinaryOp.levels) (hlength : 0 < ls.length)
    (h : Completes (.binary (level + 1)) ls e n) : Completes (.binary level) ls e n := by
  intro fuel room rest hn hfuel hstops
  have hlevel : level < 6 := hlt
  obtain ⟨fuel, rfl⟩ : ∃ k, fuel = k + 1 := ⟨fuel - 1, by omega⟩
  refine ⟨fuel, by omega, ?_⟩
  have hread := h.binary_ok fuel room rest hlength hn (by omega) hstops
  simp only [Parser.binary, if_pos hlt, hread, goOn]
  rfl

theorem operators {op : BinaryOp} {l : Lexeme} {left right : Expr} (hlt : level < BinaryOp.levels)
    (hop : op ∈ BinaryOp.atLevel level) (hl : l.IsOp op.text) (hlength : 0 < rs.length)
    (hleft : Completes (.binary level) ls left n)
    (hright : Completes (.binary (level + 1)) rs right m) :
    Completes (.binary level) (ls ++ l :: rs) (.binary left op right) (max n m) := by
  intro fuel room rest hn hfuel hstops
  have hlevel : level < 6 := hlt
  simp only [List.length_append, List.length_cons] at hfuel
  -- The left operand leaves the level with `more` fuel to go on with the operator.
  obtain ⟨more, hmore, hread⟩ := hleft fuel room (l :: (rs ++ rest)) (by omega) (by omega)
    (.of_operator hop hl _)
  obtain ⟨more, rfl⟩ : ∃ k, more = k + 1 := ⟨more - 1, by omega⟩
  have hread' := hright.binary_ok more room rest hlength (by omega) (by omega) hstops
  refine ⟨more, ?_, ?_⟩
  · simp only [List.length_append, List.length_cons]
    omega
  · rw [List.append_assoc, List.cons_append, hread, goOn, if_pos hlt, goOn, if_pos hlt,
      moreOperands, passBinary?_cons hop hl, if_pos rfl]
    simp only [hread']
    rfl

theorem factor (h : Completes .unary ls e n) : Completes (.binary BinaryOp.levels) ls e n := by
  intro fuel room rest hn hfuel hstops
  have hfuel : 12 * ls.length + 3 ≤ fuel := hfuel
  obtain ⟨fuel, rfl⟩ : ∃ k, fuel = k + 1 := ⟨fuel - 1, by omega⟩
  refine ⟨fuel + 1, by omega, ?_⟩
  rw [Parser.binary, if_neg (Nat.lt_irrefl _), goOn, if_neg (Nat.lt_irrefl _)]
  exact h _ _ _ hn (by omega) hstops

theorem sign {op : UnaryOp} {l : Lexeme} (hl : l.IsOp op.text) (hpos : 0 < n)
    (h : Completes .unary ls e n) : Completes .unary (l :: ls) (.unary op e) (n + 1) := by
  intro fuel room rest hn hfuel hstops
  simp only [List.length_cons] at hfuel
  obtain ⟨fuel, rfl⟩ : ∃ k, fuel = k + 1 := ⟨fuel - 1, by omega⟩
  obtain ⟨room, rfl⟩ : ∃ k, room = k + 1 := ⟨room - 1, by omega⟩
  rw [List.cons_append, Parser.unary, passUnary?_cons hl]
  simp only [h fuel room rest (by omega) (by omega) hstops]
  rfl

theorem unsigned {l : Lexeme} {tail : List Lexeme} (hhead : ls = l :: tail)
    (hl : l.kind = .op → String.ofList l.text ∈ Rule.postfixed.openings)
    (h : Completes .postfixed ls e n) : Completes .unary ls e n := by
  intro fuel room rest hn hfuel hstops
  obtain ⟨fuel, rfl⟩ : ∃ k, fuel = k + 1 := ⟨fuel - 1, by omega⟩
  have hpass : passUnary? (ls ++ rest) = none := by
    rw [hhead, List.cons_append]
    exact passUnary?_eq_none hl _
  obtain ⟨left, hleft, hread⟩ := h fuel room rest hn (by omega) hstops.opening
  obtain ⟨left, rfl⟩ : ∃ k, left = k + 1 := ⟨left - 1, by omega⟩
  rw [Parser.unary, hpass]
  simp only [hread, moreSuffixes, hstops.point]

theorem bare (h : Completes .primary ls e n) (hlength : 0 < ls.length) :
    Completes .postfixed ls e n := by
  intro fuel room rest hn hfuel hopening
  obtain ⟨fuel, rfl⟩ : ∃ k, fuel = k + 1 := ⟨fuel - 1, by omega⟩
  refine ⟨fuel, by omega, ?_⟩
  rw [Parser.postfixed, h _ _ _ hn (by omega)]
  rfl

theorem member {point name : Lexeme} (hpoint : point.IsOp ".") (hname : name.kind = .name)
    (h : Completes .postfixed ls e n) :
    Completes .postfixed (ls ++ [point, name]) (.member e (String.ofList name.text)) n := by
  intro fuel room rest hn hfuel hopening
  simp only [List.length_append, List.length_cons, List.length_nil] at hfuel
  obtain ⟨left, hleft, hread⟩ := h fuel room (point :: name :: rest) hn (by omega)
    (by rw [passOp?_cons hpoint]; rfl)
  obtain ⟨left, rfl⟩ : ∃ k, left = k + 1 := ⟨left - 1, by omega⟩
  refine ⟨left, ?_, ?_⟩
  · simp only [List.length_append, List.length_cons, List.length_nil]
    omega
  · rw [List.append_assoc, List.cons_append, List.cons_append, List.nil_append, hread,
      moreSuffixes, passOp?_cons hpoint, if_pos rfl]
    simp only [peek, hname, List.drop_succ_cons, List.drop_zero, hopening]
    rfl

theorem callEmpty {point name opening closing : Lexeme} (hpoint : point.IsOp ".")
    (hname : name.kind = .name) (hopening : opening.IsOp "(") (hclosing : closing.IsOp ")")
    (h : Completes .postfixed ls e n) :
    Completes .postfixed (ls ++ [point, name, opening, closing])
      (.call e (String.ofList name.text) []) n := by
  intro fuel room rest hn hfuel _
  simp only [List.length_append, List.length_cons, List.length_nil] at hfuel
  obtain ⟨left, hleft, hread⟩ := h fuel room (point :: name :: opening :: closing :: rest) hn
    (by omega) (by rw [passOp?_cons hpoint]; rfl)
  obtain ⟨left, rfl⟩ : ∃ k, left = k + 2 := ⟨left - 2, by omega⟩
  have hargs : arguments (left + 1) room (closing :: rest) = .ok ([], rest) := by
    rw [arguments, passOp?_cons hclosing, if_pos rfl]
  refine ⟨left + 1, ?_, ?_⟩
  · simp only [List.length_append, List.length_cons, List.length_nil]
    omega
  · rw [List.append_assoc]
    exact hread.trans (moreSuffixes_call hpoint hname hopening hargs)

theorem call {point name opening closing : Lexeme} {l : Lexeme} {inner tail : List Lexeme}
    {args : List Expr} (hpoint : point.IsOp ".") (hname : name.kind = .name)
    (hopening : opening.IsOp "(") (hclosing : closing.IsOp ")") (hhead : inner = l :: tail)
    (hl : l.kind = .op → String.ofList l.text ∈ (Rule.binary 0).openings)
    (h : Completes .postfixed ls e n) (hall : CompletesAll inner args m) :
    Completes .postfixed (ls ++ point :: name :: opening :: inner ++ [closing])
      (.call e (String.ofList name.text) args) (max n (m + 1)) := by
  intro fuel room rest hn hfuel _
  simp only [List.length_append, List.length_cons, List.length_nil] at hfuel
  obtain ⟨left, hleft, hread⟩ := h fuel room
    (point :: name :: opening :: (inner ++ closing :: rest)) (by omega) (by omega)
    (by rw [passOp?_cons hpoint]; rfl)
  obtain ⟨left, rfl⟩ : ∃ k, left = k + 2 := ⟨left - 2, by omega⟩
  have hpass : passOp? ")" (inner ++ closing :: rest) = none := by
    rw [hhead, List.cons_append]
    exact passOp?_closing hl _
  have hargs : arguments (left + 1) room (inner ++ closing :: rest) = .ok (args, rest) := by
    rw [arguments, hpass]
    exact hall _ _ _ _ (by omega) (by omega) hclosing
  refine ⟨left + 1, ?_, ?_⟩
  · simp only [List.length_append, List.length_cons, List.length_nil]
    omega
  · have hlist : ls ++ point :: name :: opening :: inner ++ [closing] ++ rest =
        ls ++ point :: name :: opening :: (inner ++ closing :: rest) := by simp
    rw [hlist]
    exact hread.trans (moreSuffixes_call hpoint hname hopening hargs)

/-- A lexeme that is no operator is an operand by itself. -/
theorem leaf {l : Lexeme}
    (h : ∀ fuel room rest, Parser.primary (fuel + 1) room (l :: rest) = .ok (e, rest)) :
    Completes .primary [l] e 1 := by
  intro fuel room rest _ hfuel
  have hfuel : 12 ≤ fuel := hfuel
  obtain ⟨fuel, rfl⟩ : ∃ k, fuel = k + 1 := ⟨fuel - 1, by omega⟩
  exact h fuel room rest

theorem number {l : Lexeme} {v : Value} (hkind : l.kind = .number)
    (hread : Parser.number l.text = .ok v) : Completes .primary [l] (.literal v) 1 := by
  refine leaf fun fuel room rest => ?_
  simp only [Parser.primary, peek, hkind, hread]
  rfl

theorem text {l : Lexeme} (hkind : l.kind = .text) : Completes .primary [l]
    (.literal (.text (String.ofList (unescape (inside l.text))))) 1 := by
  refine leaf fun fuel room rest => ?_
  simp only [Parser.primary, peek, hkind]
  rfl

theorem field {l : Lexeme} (hkind : l.kind = .field) :
    Completes .primary [l] (.field (String.ofList l.path)) 1 := by
  refine leaf fun fuel room rest => ?_
  simp only [Parser.primary, peek, hkind]
  rfl

theorem name {l : Lexeme} (hkind : l.kind = .name) (hread : Parser.name l = .ok e) :
    Completes .primary [l] e 1 := by
  refine leaf fun fuel room rest => ?_
  simp only [Parser.primary, peek, hkind, hread]
  rfl

theorem parentheses {opening closing : Lexeme} (hopening : opening.IsOp "(")
    (hclosing : closing.IsOp ")") (hlength : 0 < ls.length) (hpos : 0 < n)
    (h : Completes (.binary 0) ls e n) :
    Completes .primary (opening :: ls ++ [closing]) e (n + 1) := by
  intro fuel room rest hn hfuel
  simp only [List.length_append, List.length_cons, List.length_nil] at hfuel
  obtain ⟨fuel, rfl⟩ : ∃ k, fuel = k + 1 := ⟨fuel - 1, by omega⟩
  have hread := h.expr_ok fuel room (closing :: rest) hlength hpos
    (by omega) (by omega) (.of_isOp hclosing (.inl rfl) rest)
  have hlist : opening :: ls ++ [closing] ++ rest = opening :: (ls ++ closing :: rest) := by simp
  rw [hlist]
  simp only [Parser.primary, peek, hopening.1, passOp?_cons hopening, if_pos, hread]
  exact congrArg (Except.map (e, ·)) (expect_cons hclosing rest)

end Completes

namespace CompletesAll

variable {ls rest : List Lexeme} {e : Expr} {es : List Expr} {n m : Nat}

theorem last (hlength : 0 < ls.length) (hpos : 0 < n) (h : Completes (.binary 0) ls e n) :
    CompletesAll ls [e] n := by
  intro fuel room closing rest hn hfuel hclosing
  obtain ⟨fuel, rfl⟩ : ∃ k, fuel = k + 1 := ⟨fuel - 1, by omega⟩
  have hread := h.expr_ok fuel room (closing :: rest) hlength hpos hn (by omega)
    (.of_isOp hclosing (.inl rfl) rest)
  rw [moreArguments, hread]
  simp only [bind, Except.bind, passOp?_cons hclosing, if_pos]
  rfl

theorem cons {comma : Lexeme} (hcomma : comma.IsOp ",") (hlength : 0 < ls.length) (hpos : 0 < n)
    (h : Completes (.binary 0) ls e n) (hall : CompletesAll rest es m) :
    CompletesAll (ls ++ comma :: rest) (e :: es) (max n m) := by
  intro fuel room closing behind hn hfuel hclosing
  simp only [List.length_append, List.length_cons] at hfuel
  obtain ⟨fuel, rfl⟩ : ∃ k, fuel = k + 1 := ⟨fuel - 1, by omega⟩
  have hread := h.expr_ok fuel room (comma :: (rest ++ closing :: behind)) hlength hpos
    (by omega) (by omega) (.of_isOp hcomma (.inr rfl) _)
  have hmore := hall fuel room closing behind (by omega) (by omega) hclosing
  rw [List.append_assoc, List.cons_append, moreArguments, hread]
  simp only [bind, Except.bind, passOp?_cons hcomma, expect_cons hcomma, hmore]
  rfl

end CompletesAll

theorem Readable.before {used rest : List Lexeme} (h : Readable (used ++ rest)) : Readable used :=
  fun l hl => h l (List.mem_append_left rest hl)

theorem Readable.inner {l : Lexeme} {used rest : List Lexeme}
    (h : Readable (l :: used ++ rest)) : Readable used :=
  fun l' hl => h l' (List.mem_append_left rest (List.mem_cons_of_mem l hl))

theorem Derives.length_pos {r : Rule} {ls : List Lexeme} {e : Expr} {n : Nat}
    (h : Derives r ls e n) : 0 < ls.length := by
  obtain ⟨l, tail, rfl, -⟩ := h.head
  exact Nat.succ_pos _

mutual
theorem Derives.completes : ∀ {r : Rule} {ls : List Lexeme} {e : Expr} {n : Nat},
    Derives r ls e n → Readable ls → Completes r ls e n
  | _, _, _, _, .operand hlt h, hls => Completes.operand hlt h.length_pos (h.completes hls)
  | _, _, _, _, .operators (l := l) h hop hl h', hls =>
      Completes.operators (level_lt hop) hop hl h'.length_pos (h.completes hls.before)
        (h'.completes (Readable.behind [l] (hls.behind _)))
  | _, _, _, _, .factor h, hls => Completes.factor (h.completes hls)
  | _, _, _, _, .sign (l := l) hl h, hls =>
      Completes.sign hl h.nesting_pos (h.completes (Readable.behind [l] hls))
  | _, _, _, _, .unsigned h, hls => by
      obtain ⟨l, tail, hhead, hl⟩ := h.head
      exact Completes.unsigned hhead hl (h.completes hls)
  | _, _, _, _, .bare h, hls => Completes.bare (h.completes hls) h.length_pos
  | _, _, _, _, .member h hpoint hname, hls =>
      Completes.member hpoint hname (h.completes hls.before)
  | _, _, _, _, .callEmpty h hpoint hname hopening hclosing, hls =>
      Completes.callEmpty hpoint hname hopening hclosing (h.completes hls.before)
  | _, _, _, _, .call h hpoint hname hopening hall hclosing, hls => by
      obtain ⟨l, tail, hhead, hl⟩ := hall.head
      have hinner := hls.before.behind _
      exact Completes.call hpoint hname hopening hclosing hhead hl (h.completes hls.before.before)
        (hall.completes (Readable.behind [_, _, _] hinner))
  | _, _, _, _, .number (l := l) hkind hdenotes, hls =>
      Completes.number hkind (number_eq_ok hdenotes (hls l List.mem_cons_self hkind).2)
  | _, _, _, _, .text hkind, _ => Completes.text hkind
  | _, _, _, _, .field hkind, _ => Completes.field hkind
  | _, _, _, _, .word hkind hword, _ => Completes.name hkind (name_eq_ok.mpr (.inl ⟨_, hword, rfl⟩))
  | _, _, _, _, .root hkind hroot, _ => Completes.name hkind (name_eq_ok.mpr (.inr ⟨_, hroot, rfl⟩))
  | _, _, _, _, .parentheses hopening h hclosing, hls =>
      Completes.parentheses hopening hclosing h.length_pos h.nesting_pos (h.completes hls.inner)
theorem DerivesAll.completes : ∀ {ls : List Lexeme} {es : List Expr} {n : Nat},
    DerivesAll ls es n → Readable ls → CompletesAll ls es n
  | _, _, _, .last h, hls => CompletesAll.last h.length_pos h.nesting_pos (h.completes hls)
  | _, _, _, .cons h hcomma hall, hls =>
      CompletesAll.cons hcomma h.length_pos h.nesting_pos (h.completes hls.before)
        (hall.completes (Readable.behind [_] (hls.behind _)))
end

/-! ## Sources -/

theorem Lexeme.IsOp.kind_ne {l : Lexeme} {o : String} (h : l.IsOp o) : l.kind ≠ .stop := by
  rw [h.1]
  decide

mutual
/-- No rule derives an end. -/
theorem Derives.kind_ne : ∀ {r : Rule} {ls : List Lexeme} {e : Expr} {n : Nat},
    Derives r ls e n → ∀ l ∈ ls, l.kind ≠ .stop
  | _, _, _, _, .operand _ h => h.kind_ne
  | _, _, _, _, .operators h _ hl h' =>
      List.forall_mem_append.mpr ⟨h.kind_ne, List.forall_mem_cons.mpr ⟨hl.kind_ne, h'.kind_ne⟩⟩
  | _, _, _, _, .factor h => h.kind_ne
  | _, _, _, _, .sign hl h => List.forall_mem_cons.mpr ⟨hl.kind_ne, h.kind_ne⟩
  | _, _, _, _, .unsigned h => h.kind_ne
  | _, _, _, _, .bare h => h.kind_ne
  | _, _, _, _, .member h hpoint hname => by
      refine List.forall_mem_append.mpr ⟨h.kind_ne, List.forall_mem_cons.mpr ⟨hpoint.kind_ne, ?_⟩⟩
      simp [hname]
  | _, _, _, _, .callEmpty h hpoint hname hopening hclosing => by
      refine List.forall_mem_append.mpr ⟨h.kind_ne, List.forall_mem_cons.mpr ⟨hpoint.kind_ne, ?_⟩⟩
      simp [hname, hopening.1, hclosing.1]
  | _, _, _, _, .call h hpoint hname hopening hall hclosing => by
      refine List.forall_mem_append.mpr ⟨List.forall_mem_append.mpr ⟨h.kind_ne,
        List.forall_mem_cons.mpr ⟨hpoint.kind_ne, ?_⟩⟩, by simp [hclosing.1]⟩
      exact List.forall_mem_cons.mpr
        ⟨by simp [hname], List.forall_mem_cons.mpr ⟨hopening.kind_ne, hall.kind_ne⟩⟩
  | _, _, _, _, .number hkind _ => by simp [hkind]
  | _, _, _, _, .text hkind => by simp [hkind]
  | _, _, _, _, .field hkind => by simp [hkind]
  | _, _, _, _, .word hkind _ => by simp [hkind]
  | _, _, _, _, .root hkind _ => by simp [hkind]
  | _, _, _, _, .parentheses hopening h hclosing =>
      List.forall_mem_append.mpr ⟨List.forall_mem_cons.mpr ⟨hopening.kind_ne, h.kind_ne⟩,
        by simp [hclosing.1]⟩
theorem DerivesAll.kind_ne : ∀ {ls : List Lexeme} {es : List Expr} {n : Nat},
    DerivesAll ls es n → ∀ l ∈ ls, l.kind ≠ .stop
  | _, _, _, .last h => h.kind_ne
  | _, _, _, .cons h hcomma hall =>
      List.forall_mem_append.mpr
        ⟨h.kind_ne, List.forall_mem_cons.mpr ⟨hcomma.kind_ne, hall.kind_ne⟩⟩
end

theorem Lexeme.at?_number {cs : List Char} {n : Nat} (h : Lexeme.at? cs = some (.number, n)) :
    Lexeme.numberLength? cs = some n := by
  unfold Lexeme.at? at h
  split at h
  · cases h
  · split at h
    next hnumber =>
      cases h
      exact hnumber
    next =>
      split at h
      · cases h
      · split at h
        · cases h
        · obtain ⟨m, -, heq⟩ := Option.map_eq_some_iff.mp h
          cases heq

/-- The numbers of a source can be read. -/
theorem Readable.of_ofSource {source : List Char} {ls : List Lexeme}
    (h : Lexeme.ofSource source = .ok ls) (short : ∀ l ∈ ls, l.kind = .number →
      l.text.all Text.isDigit = true → l.text.length ≤ Number.digitLimit) : Readable ls := by
  intro l hl hkind
  refine ⟨?_, short l hl hkind⟩
  rw [Lexeme.ofSource_eq_spans h] at hl
  rcases List.mem_append.mp hl with hspan | hend
  · obtain ⟨x, hx, rfl⟩ := List.mem_map.mp hspan
    have hat := cut_of_mem_spans hx
    rw [show x.piece = .number from hkind] at hat
    exact exists_denotes (Lexeme.at?_number hat)
  · rw [List.mem_singleton.mp hend] at hkind
    cases hkind

section Whole

variable {depth : Nat} {body : List Lexeme} {last : Lexeme} {e : Expr}

/-- What is read up to an end is all that stands before the last lexeme, when nothing there is an
end. -/
theorem derives_of_ofLexemes (hlast : last.kind = .stop) (hbody : ∀ l ∈ body, l.kind ≠ .stop)
    (hls : Readable (body ++ [last])) (h : ofLexemes depth (body ++ [last]) = .ok e) :
    ∃ n ≤ depth, Derives (.binary 0) body e n := by
  obtain ⟨⟨e', rest⟩, hexpr, hend⟩ := bind_eq_ok.mp h
  dsimp only at hend
  split at hend
  next hstop =>
    cases hend
    obtain ⟨used, n, hsplit, hderives, hn⟩ := (sound _).expr hls hexpr
    have hrest : (peek rest).kind = .stop := by simpa using hstop
    have hused : ∀ l ∈ used, l.kind ≠ .stop := hderives.kind_ne
    have heq : used = body := by
      rcases rest with _ | ⟨l, rest⟩
      · rw [List.append_nil] at hsplit
        have hlast' : last ∈ used := hsplit ▸ List.mem_append_right body List.mem_cons_self
        exact absurd hlast (hused last hlast')
      · rcases List.eq_nil_or_concat rest with rfl | ⟨rest, x, rfl⟩
        · exact (List.append_inj' hsplit rfl).1.symm
        · -- Then `l` stands before the last lexeme, and is no end.
          rw [List.concat_eq_append, ← List.cons_append, ← List.append_assoc] at hsplit
          have hl : l ∈ body := by
            rw [(List.append_inj' hsplit rfl).1]
            exact List.mem_append_right _ List.mem_cons_self
          exact absurd hrest (hbody l hl)
    exact ⟨n, hn, heq ▸ hderives⟩
  next => cases hend

theorem ofLexemes_of_derives (hlast : last.kind = .stop) (hbody : Readable body) {n : Nat}
    (hn : n ≤ depth) (h : Derives (.binary 0) body e n) :
    ofLexemes depth (body ++ [last]) = .ok e := by
  have hstops : Stops 0 [last] := .of_kind (by rw [hlast]; decide) []
  have hread := Completes.expr_ok (h.completes hbody) (12 * (body ++ [last]).length + 12)
    depth [last] h.length_pos h.nesting_pos hn (by simp; omega) hstops
  simp only [ofLexemes, hread, bind, Except.bind, peek, hlast]
  rfl

end Whole

/-- What the parser accepts is what the grammar derives, in the nesting that the limit allows, and
the grammar derives one expression at most. -/
theorem accepts_iff_derives {source : List Char} {ls : List Lexeme}
    (h : Lexeme.ofSource source = .ok ls)
    (short : ∀ l ∈ ls, l.kind = .number → l.text.all Text.isDigit = true →
      l.text.length ≤ Number.digitLimit) :
    (∀ depth e, ofLexemes depth ls = .ok e ↔ ∃ n ≤ depth, Derives (.binary 0) ls.dropLast e n) ∧
      ∀ {e e' n n'}, Derives (.binary 0) ls.dropLast e n → Derives (.binary 0) ls.dropLast e' n' →
        e = e' := by
  have hls := Readable.of_ofSource h short
  obtain ⟨body, last, rfl, hlast, hbody⟩ : ∃ body last, ls = body ++ [last] ∧
      last.kind = .stop ∧ ∀ l ∈ body, l.kind ≠ .stop :=
    ⟨_, _, Lexeme.ofSource_eq_spans h, rfl, Lexeme.spans_no_stop⟩
  rw [List.dropLast_concat]
  refine ⟨fun depth e => ⟨derives_of_ofLexemes hlast hbody hls, ?_⟩, ?_⟩
  · rintro ⟨n, hn, hderives⟩
    exact ofLexemes_of_derives hlast hls.before hn hderives
  · intro e e' n n' hderives hderives'
    have hread := ofLexemes_of_derives hlast hls.before (Nat.le_max_left n n') hderives
    rw [ofLexemes_of_derives hlast hls.before (Nat.le_max_right n n') hderives'] at hread
    cases hread
    rfl

/-- Differences go together from the left, and a sign is one nesting more. -/
theorem difference_accepted : ∃ ls, Lexeme.ofSource "8 - \x7ba\x7d - -2".toList = .ok ls ∧
    (∃ n ≤ 2, Derives (.binary 0) ls.dropLast
      (.binary (.binary (.literal (.int 8)) (.arith .sub) (.field "a")) (.arith .sub)
        (.unary .neg (.literal (.int 2)))) n) ∧
    ∀ e, ¬ ∃ n ≤ 1, Derives (.binary 0) ls.dropLast e n := by
  have scanned : Lexeme.ofSource "8 - \x7ba\x7d - -2".toList = .ok
      [⟨.number, ['8'], 0⟩, ⟨.op, ['-'], 2⟩, ⟨.field, ['\x7b', 'a', '\x7d'], 4⟩, ⟨.op, ['-'], 8⟩,
        ⟨.op, ['-'], 10⟩, ⟨.number, ['2'], 11⟩, ⟨.stop, [], 12⟩] := rfl
  have accepts := (accepts_iff_derives scanned (by decide)).1
  refine ⟨_, scanned, (accepts 2 _).mp (by with_unfolding_all rfl), fun e hderives => ?_⟩
  have refused : (ofLexemes 1 [⟨.number, ['8'], 0⟩, ⟨.op, ['-'], 2⟩,
      ⟨.field, ['\x7b', 'a', '\x7d'], 4⟩, ⟨.op, ['-'], 8⟩, ⟨.op, ['-'], 10⟩, ⟨.number, ['2'], 11⟩,
      ⟨.stop, [], 12⟩]).toBool = false := by decide +kernel
  rw [(accepts 1 e).mpr hderives] at refused
  cases refused

end Toolbar.Expr
