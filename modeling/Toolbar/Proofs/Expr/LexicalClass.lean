/-
# `Toolbar.Proofs.Expr.LexicalClass` — the classes of lexemes

Each class of lexemes admits some texts: a field a path in braces, a number a numeral, a text what
stands in quotes, the operators are twenty and a name is a word.  `Kind.Admits` says so without
reading anything.  What is read of a source is tied to it in three steps:

    Kind.Admits.head     the first character of a text tells the class that admits it
    Finds                the length that is read for a class is that of its longest text
    at?_of_foremost      the next lexeme is the longest text that any class admits
-/
import Toolbar.Proofs.Expr.Numeral

namespace Toolbar.Expr.Lexeme

open Text

/-! ## The classes of lexemes -/

/-- What stands between two marks `q`: other characters, and backslashes each with a character
behind it that does not end the line. -/
inductive Inner (q : Char) : List Char → Prop
  | nil : Inner q []
  | plain {c : Char} {cs : List Char} : c ≠ q → c ≠ '\\' → Inner q cs → Inner q (c :: cs)
  | escape {c : Char} {cs : List Char} : c ≠ '\n' → Inner q cs → Inner q ('\\' :: c :: cs)

/-- The texts that a class of lexemes admits. -/
inductive Kind.Admits : Kind → List Char → Prop
  | field {path : List Char} : path ≠ [] → '\x7d' ∉ path →
      Admits .field ('\x7b' :: path ++ ['\x7d'])
  | number {text : List Char} {v : Value} : Denotes text v → Admits .number text
  | text {q : Char} {inner : List Char} : q = '"' ∨ q = '\'' → Inner q inner →
      Admits .text (q :: inner ++ [q])
  | op {o : List Char} : o ∈ operators → Admits .op o
  | name {c : Char} {cs : List Char} : Token.isNameStart c = true →
      (∀ d ∈ cs, Token.isNamePart d = true) → Admits .name (c :: cs)

/-- The characters that operators begin with. -/
def opMarks : List Char :=
  ['=', '!', '<', '>', '&', '|', '+', '-', '*', '/', '%', '(', ')', ',', '.']

/-- The class of the texts that begin with a character. -/
def Kind.of? (c : Char) : Option Kind :=
  if c = '\x7b' then some .field
  else if isDigit c then some .number
  else if c = '"' ∨ c = '\'' then some .text
  else if c ∈ opMarks then some .op
  else if Token.isNameStart c then some .name
  else none

theorem toNat_lt_of_isNameStart {c : Char} (h : Token.isNameStart c = true) : c.toNat < 128 := by
  simp only [Token.isNameStart, Bool.or_eq_true, Bool.and_eq_true, decide_eq_true_eq,
    beq_iff_eq] at h
  rcases h with ((⟨-, h⟩ | ⟨-, h⟩) | rfl) | rfl
  · exact Nat.lt_of_le_of_lt (show c.toNat ≤ 'Z'.toNat from h) (by decide)
  · exact Nat.lt_of_le_of_lt (show c.toNat ≤ 'z'.toNat from h) (by decide)
  · decide
  · decide

/-- What a name begins with is no blank and begins no text of another class. -/
theorem of?_of_isNameStart {c : Char} (h : Token.isNameStart c = true) :
    Kind.of? c = some .name ∧ isBlank c = false := by
  have ascii : ∀ n < 128, Token.isNameStart (Char.ofNat n) = true →
      Kind.of? (Char.ofNat n) = some .name ∧ isBlank (Char.ofNat n) = false := by
    decide +kernel
  have found := ascii c.toNat (toNat_lt_of_isNameStart h)
  rw [Char.ofNat_toNat] at found
  exact found h

/-- No text begins with a blank. -/
theorem of?_of_isBlank {c : Char} (h : isBlank c = true) : Kind.of? c = none := by
  have no_mark : c ∉ '\x7b' :: '"' :: '\'' :: opMarks := by
    intro hc
    have visible : ('\x7b' :: '"' :: '\'' :: opMarks).all (!isBlank ·) = true := by decide
    have marked := List.all_eq_true.mp visible c hc
    rw [h] at marked
    cases marked
  have no_name : ¬ Token.isNameStart c = true := by
    intro hname
    rw [(of?_of_isNameStart hname).2] at h
    cases h
  simp only [List.mem_cons, not_or] at no_mark
  obtain ⟨no_brace, no_quote, no_apostrophe, no_op⟩ := no_mark
  simp [Kind.of?, isDigit_of_isBlank h, no_name, no_op, no_brace, no_quote, no_apostrophe]

/-- The first character of a text tells the class that admits it. -/
theorem Kind.Admits.head {kind : Kind} {text : List Char} (h : kind.Admits text) :
    ∃ c cs, text = c :: cs ∧ Kind.of? c = some kind := by
  cases h with
  | field _ _ => exact ⟨_, _, rfl, rfl⟩
  | @number _ v denotes =>
      have first : ∀ {ds : List Char}, ds ≠ [] → (∀ d ∈ ds, isDigit d = true) → ∀ rest,
          ∃ c cs, ds ++ rest = c :: cs ∧ Kind.of? c = some .number := by
        intro ds hne hds rest
        obtain ⟨d, tail, rfl⟩ := List.exists_cons_of_ne_nil hne
        have digit := hds d List.mem_cons_self
        refine ⟨d, tail ++ rest, rfl, ?_⟩
        rw [Kind.of?, if_neg (not_brace_of_isDigit digit), if_pos digit]
      cases denotes with
      | integer hne hds =>
          have found := first hne hds []
          rwa [List.append_nil] at found
      | decimal hne hds _ _ _ => exact first hne hds _
  | text hq _ =>
      rcases hq with rfl | rfl
      · exact ⟨_, _, rfl, by decide⟩
      · exact ⟨_, _, rfl, by decide⟩
  | op ho =>
      have all : ∀ o ∈ operators, o.head?.bind Kind.of? = some .op := by decide
      have found := all _ ho
      cases text with
      | nil => cases found
      | cons c cs => exact ⟨c, cs, rfl, found⟩
  | name hstart _ => exact ⟨_, _, rfl, (of?_of_isNameStart hstart).1⟩

theorem Kind.Admits.not_blank {kind : Kind} {c : Char} {cs : List Char}
    (h : kind.Admits (c :: cs)) : isBlank c = false := by
  obtain ⟨d, ds, heq, hkind⟩ := h.head
  cases heq
  cases hblank : isBlank c with
  | false => rfl
  | true =>
      rw [of?_of_isBlank hblank] at hkind
      cases hkind

theorem Kind.Admits.length_pos {kind : Kind} {text : List Char} (h : kind.Admits text) :
    0 < text.length := by
  obtain ⟨c, cs, rfl, -⟩ := h.head
  exact Nat.succ_pos _

/-! ## The length of the longest text -/

/-- A function finds the longest text of a class at the beginning of its argument. -/
structure Finds (kind : Kind) (length? : List Char → Option Nat) : Prop where
  admits : ∀ {cs n}, length? cs = some n → n ≤ cs.length ∧ kind.Admits (cs.take n)
  longest : ∀ {text} (rest), kind.Admits text →
    ∃ n, length? (text ++ rest) = some n ∧ text.length ≤ n

theorem finds_field : Finds .field fieldLength? := by
  constructor
  · intro cs n h
    obtain ⟨path, rest, hpath, rfl⟩ := fieldLength?_eq_some.mp h
    obtain ⟨hne, hmem, rfl⟩ := Token.pathAt?_eq_some.mp hpath
    have split : '\x7b' :: path ++ '\x7d' :: rest = ('\x7b' :: path ++ ['\x7d']) ++ rest := by simp
    refine ⟨by simp, ?_⟩
    rw [split, List.take_left' (by simp)]
    exact .field hne hmem
  · intro text rest h
    cases h with
    | @field path hne hmem =>
        refine ⟨path.length + 2, fieldLength?_eq_some.mpr ⟨path, rest, ?_, rfl⟩, by simp⟩
        exact Token.pathAt?_eq_some.mpr ⟨hne, hmem, by simp⟩

theorem quotedLength?_of_inner {q : Char} {inner : List Char} (hq : q ≠ '\\') (h : Inner q inner)
    (rest : List Char) : quotedLength? q (inner ++ q :: rest) = some (inner.length + 1) := by
  induction h with
  | nil =>
      rw [List.nil_append, quotedLength?.eq_def]
      simp
  | plain hmark hback _ ih =>
      rw [List.cons_append, quotedLength?.eq_def]
      simp [hmark, hback, ih]
  | escape hline _ ih =>
      rw [List.cons_append, List.cons_append, quotedLength?.eq_def]
      simp [Ne.symm hq, hline, ih]

theorem inner_of_quotedLength? {q : Char} {cs : List Char} {n : Nat}
    (h : quotedLength? q cs = some n) :
    ∃ inner rest, Inner q inner ∧ cs = inner ++ q :: rest ∧ n = inner.length + 1 := by
  fun_induction quotedLength? q cs generalizing n with
  | case1 => cases h
  | case2 c cs hmark =>
      cases h
      exact ⟨[], cs, .nil, by rw [beq_iff_eq.mp hmark]; rfl, rfl⟩
  | case3 => cases h
  | case4 c hmark hback d ds hline ih =>
      obtain ⟨m, hm, rfl⟩ := Option.map_eq_some_iff.mp h
      obtain ⟨inner, rest, hinner, rfl, rfl⟩ := ih hm
      have hd : d ≠ '\n' := by simpa using hline
      refine ⟨'\\' :: d :: inner, rest, .escape hd hinner, ?_, rfl⟩
      rw [beq_iff_eq.mp hback]
      rfl
  | case5 => cases h
  | case6 c cs hmark hback ih =>
      obtain ⟨m, hm, rfl⟩ := Option.map_eq_some_iff.mp h
      obtain ⟨inner, rest, hinner, rfl, rfl⟩ := ih hm
      have hplain : Inner q (c :: inner) :=
        .plain (by simpa using hmark) (by simpa using hback) hinner
      exact ⟨c :: inner, rest, hplain, rfl, rfl⟩

theorem finds_text : Finds .text textLength? := by
  constructor
  · intro cs n h
    cases cs with
    | nil => cases h
    | cons q cs =>
        simp only [textLength?] at h
        split at h
        next hmark =>
          obtain ⟨m, hm, rfl⟩ := Option.map_eq_some_iff.mp h
          obtain ⟨inner, rest, hinner, rfl, rfl⟩ := inner_of_quotedLength? hm
          have split : q :: (inner ++ q :: rest) = (q :: inner ++ [q]) ++ rest := by simp
          refine ⟨by simp, ?_⟩
          rw [split, List.take_left' (by simp)]
          exact .text (by simpa using hmark) hinner
        next => cases h
  · intro text rest h
    cases h with
    | @text q inner hq hinner =>
        have hback : q ≠ '\\' := by rcases hq with rfl | rfl <;> decide
        have hmark : (q == '"' || q == '\'') = true := by simpa using hq
        have split : (q :: inner ++ [q]) ++ rest = q :: (inner ++ q :: rest) := by simp
        refine ⟨inner.length + 2, ?_, by simp⟩
        rw [split, textLength?, if_pos hmark, quotedLength?_of_inner hback hinner]
        rfl

theorem operatorLength?_longest {os : List (List Char)} {o rest : List Char}
    (falling : os.Pairwise fun o o' => o'.length ≤ o.length) (ho : o ∈ os) :
    ∃ n, operatorLength? (o ++ rest) os = some n ∧ o.length ≤ n := by
  induction os with
  | nil => cases ho
  | cons first os ih =>
      obtain ⟨below, falling⟩ := List.pairwise_cons.mp falling
      rw [operatorLength?]
      split
      next =>
        refine ⟨first.length, rfl, ?_⟩
        rcases List.mem_cons.mp ho with rfl | ho
        · exact Nat.le_refl _
        · exact below o ho
      next hstarts =>
        rcases List.mem_cons.mp ho with rfl | ho
        · exact absurd (startsWith_iff.mpr ⟨rest, rfl⟩) hstarts
        · exact ih falling ho

theorem operator_of_operatorLength? {cs : List Char} {os : List (List Char)} {n : Nat}
    (h : operatorLength? cs os = some n) : ∃ o ∈ os, ∃ rest, cs = o ++ rest ∧ n = o.length := by
  induction os with
  | nil => cases h
  | cons o os ih =>
      rw [operatorLength?] at h
      split at h
      next hstarts =>
        obtain ⟨rest, rfl⟩ := startsWith_iff.mp hstarts
        cases h
        exact ⟨o, List.mem_cons_self, rest, rfl, rfl⟩
      next =>
        obtain ⟨o', ho', found⟩ := ih h
        exact ⟨o', List.mem_cons_of_mem _ ho', found⟩

theorem finds_op : Finds .op (operatorLength? · operators) := by
  constructor
  · intro cs n h
    obtain ⟨o, ho, rest, rfl, rfl⟩ := operator_of_operatorLength? h
    refine ⟨by simp, ?_⟩
    rw [List.take_left]
    exact .op ho
  · intro text rest h
    cases h with
    | op ho => exact operatorLength?_longest (by decide) ho

theorem finds_name : Finds .name nameLength? := by
  constructor
  · intro cs n h
    cases cs with
    | nil => cases h
    | cons c cs =>
        simp only [nameLength?] at h
        split at h
        next hstart =>
          cases h
          have hprefix := List.takeWhile_prefix (l := cs) Token.isNamePart
          refine ⟨?_, ?_⟩
          · rw [Nat.add_comm]
            exact Nat.succ_le_succ hprefix.length_le
          · rw [Nat.add_comm, List.take_succ_cons, ← List.prefix_iff_eq_take.mp hprefix]
            exact .name hstart fun d hd => mem_takeWhile hd
        next => cases h
  · intro text rest h
    cases h with
    | @name c cs hstart hparts =>
        refine ⟨_, by rw [List.cons_append, nameLength?, if_pos hstart], ?_⟩
        rw [List.takeWhile_append_of_pos hparts, List.length_cons, List.length_append]
        omega

/-! ### Numbers -/

theorem digitCount_le (cs : List Char) : digitCount cs ≤ cs.length :=
  (List.takeWhile_prefix isDigit).length_le

theorem digitCount_append {ds : List Char} (hds : ∀ d ∈ ds, isDigit d = true) (rest : List Char) :
    digitCount (ds ++ rest) = ds.length + digitCount rest := by
  rw [digitCount, List.takeWhile_append_of_pos hds, List.length_append, digitCount]

theorem fractionLength_le (cs : List Char) : fractionLength cs ≤ cs.length := by
  unfold fractionLength
  split
  next cs =>
    split
    · exact Nat.zero_le _
    · have := digitCount_le cs
      simp only [List.length_cons]
      omega
  next => exact Nat.zero_le _

theorem exponentLength_le (cs : List Char) : exponentLength cs ≤ cs.length := by
  unfold exponentLength
  split
  next c cs =>
    split
    next =>
      split
      next s ds =>
        have := digitCount_le ds
        have := digitCount_le (s :: ds)
        simp only [List.length_cons] at this ⊢
        repeat' split
        all_goals omega
      next => exact Nat.zero_le _
    next => exact Nat.zero_le _
  next => exact Nat.zero_le _

theorem numberLength?_le {cs : List Char} {n : Nat} (h : numberLength? cs = some n) :
    n ≤ cs.length := by
  simp only [numberLength?] at h
  split at h
  · cases h
  · cases h
    have whole := digitCount_le cs
    have fraction := fractionLength_le (cs.drop (digitCount cs))
    have exponent := exponentLength_le
      (cs.drop (digitCount cs + fractionLength (cs.drop (digitCount cs))))
    rw [List.length_drop] at fraction exponent
    omega

theorem digitCount_cons {c : Char} (h : isDigit c = false) (cs : List Char) :
    digitCount (c :: cs) = 0 := by
  rw [digitCount, List.takeWhile_cons_of_neg (by simp [h]), List.length_nil]

/-- An exponent is read as far as it goes. -/
theorem le_exponentLength {exponent : List Char} {e : Int} (h : Exponent exponent e)
    (rest : List Char) : exponent.length ≤ exponentLength (exponent ++ rest) := by
  have counted : ∀ {ds : List Char}, ds ≠ [] → (∀ d ∈ ds, isDigit d = true) →
      ds.length ≤ digitCount (ds ++ rest) ∧ digitCount (ds ++ rest) ≠ 0 := by
    intro ds hne hds
    have := List.length_pos_iff.mpr hne
    rw [digitCount_append hds]
    omega
  cases h with
  | none => exact Nat.zero_le _
  | @unsigned c ds hc hne hds =>
      have letter : (c == 'e' || c == 'E') = true := by simpa using hc
      obtain ⟨le, some_digit⟩ := counted hne hds
      obtain ⟨d, ds, rfl⟩ := List.exists_cons_of_ne_nil hne
      have no_sign : ¬ (d == '+' || d == '-') = true := by
        have digit := hds d List.mem_cons_self
        intro sign
        rcases (by simpa using sign : d = '+' ∨ d = '-') with rfl | rfl
        · exact absurd digit (by decide)
        · exact absurd digit (by decide)
      simp only [List.cons_append] at le some_digit ⊢
      simp only [exponentLength, letter, no_sign, some_digit, if_true, if_false, Bool.false_eq_true,
        List.length_cons] at le ⊢
      omega
  | @signed c ds negative hc hne hds =>
      have letter : (c == 'e' || c == 'E') = true := by simpa using hc
      obtain ⟨le, some_digit⟩ := counted hne hds
      have sign : ((if negative then '-' else '+') == '+' ||
          (if negative then '-' else '+') == '-') = true := by cases negative <;> rfl
      simp only [List.cons_append, exponentLength, letter, sign, some_digit, if_true, if_false,
        List.length_cons]
      omega

/-- No digit and no point begins an exponent. -/
theorem counts_exponent {exponent : List Char} {e : Int} (h : Exponent exponent e)
    (rest : List Char) : exponent = [] ∨
      digitCount (exponent ++ rest) = 0 ∧ fractionLength (exponent ++ rest) = 0 := by
  have letter : ∀ {c : Char}, c = 'e' ∨ c = 'E' → ∀ cs : List Char,
      digitCount (c :: cs) = 0 ∧ fractionLength (c :: cs) = 0 := by
    rintro c (rfl | rfl) cs
    · exact ⟨digitCount_cons (by decide) cs, rfl⟩
    · exact ⟨digitCount_cons (by decide) cs, rfl⟩
  cases h with
  | none => exact .inl rfl
  | unsigned hc _ _ => exact .inr (letter hc _)
  | signed _ hc _ _ => exact .inr (letter hc _)

/-- A numeral is read as far as it goes. -/
theorem le_numberLength? {ds fraction fs exponent : List Char} {e : Int} (hne : ds ≠ [])
    (hds : ∀ d ∈ ds, isDigit d = true) (hfraction : Fraction fraction fs)
    (hexponent : Exponent exponent e) (rest : List Char) :
    ∃ n, numberLength? (ds ++ (fraction ++ (exponent ++ rest))) = some n ∧
      ds.length + fraction.length + exponent.length ≤ n := by
  have positive := List.length_pos_iff.mpr hne
  have whole := digitCount_append hds (fraction ++ (exponent ++ rest))
  have some_digit : digitCount (ds ++ (fraction ++ (exponent ++ rest))) ≠ 0 := by omega
  refine ⟨_, by rw [numberLength?, if_neg some_digit], ?_⟩
  have behind := le_exponentLength hexponent rest
  cases hfraction with
  | none =>
      rcases counts_exponent hexponent rest with rfl | ⟨no_digit, no_fraction⟩
      · simp only [List.nil_append, List.length_nil] at whole ⊢
        omega
      · simp only [List.nil_append, List.length_nil] at whole ⊢
        rw [no_digit, Nat.add_zero] at whole
        rw [whole, List.drop_left, no_fraction, Nat.add_zero, List.drop_left]
        omega
  | @point fs hfs hall =>
      have places := digitCount_append hall (exponent ++ rest)
      have some_place := List.length_pos_iff.mpr hfs
      have point : digitCount ('.' :: fs ++ (exponent ++ rest)) = 0 :=
        digitCount_cons (by decide) _
      rw [point, Nat.add_zero] at whole
      have fraction : fractionLength ('.' :: fs ++ (exponent ++ rest)) =
          1 + digitCount (fs ++ (exponent ++ rest)) := by
        rw [List.cons_append, fractionLength, if_neg (by omega)]
      rw [whole, List.drop_left, fraction]
      rcases counts_exponent hexponent rest with rfl | ⟨no_digit, -⟩
      · simp only [List.length_cons, List.length_nil]
        omega
      · have split : ds ++ ('.' :: fs ++ (exponent ++ rest)) =
            (ds ++ '.' :: fs) ++ (exponent ++ rest) := by simp
        rw [places, no_digit, split, List.drop_left' (by simp; omega)]
        simp only [List.length_cons]
        omega

theorem finds_number : Finds .number numberLength? := by
  constructor
  · intro cs n h
    obtain ⟨v, denotes⟩ := exists_denotes h
    exact ⟨numberLength?_le h, .number denotes⟩
  · intro text rest h
    cases h with
    | number denotes =>
        cases denotes with
        | integer hne hds =>
            obtain ⟨n, found, le⟩ := le_numberLength? hne hds .none .none rest
            exact ⟨n, found, le⟩
        | decimal hne hds hfraction hexponent _ =>
            obtain ⟨n, found, le⟩ := le_numberLength? hne hds hfraction hexponent rest
            refine ⟨n, ?_, ?_⟩
            · rw [List.append_assoc, List.append_assoc]
              exact found
            · rw [List.length_append, List.length_append, ← Nat.add_assoc]
              exact le

/-! ## The next lexeme -/

/-- A class does not find a text where a text of another class begins. -/
theorem Finds.eq_none {kind other : Kind} {length? : List Char → Option Nat}
    (finds : Finds kind length?) {c : Char} (h : Kind.of? c = some other) (ne : kind ≠ other)
    (cs : List Char) : length? (c :: cs) = none := by
  cases found : length? (c :: cs) with
  | none => rfl
  | some n =>
      obtain ⟨d, ds, htake, hkind⟩ := (finds.admits found).2.head
      have hd : c = d := by
        cases n with
        | zero => cases htake
        | succ n => exact (List.cons.inj htake).1
      rw [← hd, h] at hkind
      exact absurd (Option.some.inj hkind).symm ne

/-- A text that some class admits is read, or a longer one of the class. -/
theorem at?_of_admits {kind : Kind} {text : List Char} (h : kind.Admits text) (rest : List Char) :
    ∃ n, at? (text ++ rest) = some (kind, n) ∧ text.length ≤ n := by
  obtain ⟨c, cs, rfl, hkind⟩ := h.head
  cases kind with
  | field =>
      obtain ⟨n, found, le⟩ := finds_field.longest rest h
      exact ⟨n, by simp only [at?, found], le⟩
  | number =>
      obtain ⟨n, found, le⟩ := finds_number.longest rest h
      have no_field := finds_field.eq_none hkind (by decide) (cs ++ rest)
      rw [List.cons_append] at found ⊢
      exact ⟨n, by simp only [at?, no_field, found], le⟩
  | text =>
      obtain ⟨n, found, le⟩ := finds_text.longest rest h
      have no_field := finds_field.eq_none hkind (by decide) (cs ++ rest)
      have no_number := finds_number.eq_none hkind (by decide) (cs ++ rest)
      rw [List.cons_append] at found ⊢
      exact ⟨n, by simp only [at?, no_field, no_number, found], le⟩
  | op =>
      obtain ⟨n, found, le⟩ := finds_op.longest rest h
      have no_field := finds_field.eq_none hkind (by decide) (cs ++ rest)
      have no_number := finds_number.eq_none hkind (by decide) (cs ++ rest)
      have no_text := finds_text.eq_none hkind (by decide) (cs ++ rest)
      rw [List.cons_append] at found ⊢
      exact ⟨n, by simp only [at?, no_field, no_number, no_text, found], le⟩
  | name =>
      obtain ⟨n, found, le⟩ := finds_name.longest rest h
      have no_field := finds_field.eq_none hkind (by decide) (cs ++ rest)
      have no_number := finds_number.eq_none hkind (by decide) (cs ++ rest)
      have no_text := finds_text.eq_none hkind (by decide) (cs ++ rest)
      have no_op := finds_op.eq_none hkind (by decide) (cs ++ rest)
      rw [List.cons_append] at found ⊢
      exact ⟨n, by simp only [at?, no_field, no_number, no_text, no_op, found, Option.map_some], le⟩
  | stop => cases h

/-- What is read is a text of its class. -/
theorem admits_of_at? {cs : List Char} {kind : Kind} {n : Nat} (h : at? cs = some (kind, n)) :
    n ≤ cs.length ∧ kind.Admits (cs.take n) := by
  unfold at? at h
  split at h
  next found =>
    cases h
    exact finds_field.admits found
  next =>
    split at h
    next found =>
      cases h
      exact finds_number.admits found
    next =>
      split at h
      next found =>
        cases h
        exact finds_text.admits found
      next =>
        split at h
        next found =>
          cases h
          exact finds_op.admits found
        next =>
          obtain ⟨m, found, heq⟩ := Option.map_eq_some_iff.mp h
          cases heq
          exact finds_name.admits found

/-- The class admits the text, and no class admits a longer one that begins where it stands. -/
def Foremost (kind : Kind) (text rest : List Char) : Prop :=
  kind.Admits text ∧ ∀ (kind' : Kind) (text' : List Char), kind'.Admits text' →
    text' <+: text ++ rest → text'.length ≤ text.length

theorem at?_of_foremost {kind : Kind} {text rest : List Char} (h : Foremost kind text rest) :
    at? (text ++ rest) = some (kind, text.length) := by
  obtain ⟨n, found, le⟩ := at?_of_admits h.1 rest
  obtain ⟨fits, admits⟩ := admits_of_at? found
  have longest := h.2 kind _ admits (List.take_prefix n _)
  rw [List.length_take, Nat.min_eq_left fits] at longest
  rw [found, Nat.le_antisymm longest le]

theorem foremost_of_at? {cs : List Char} {kind : Kind} {n : Nat} (h : at? cs = some (kind, n)) :
    ∃ text rest, cs = text ++ rest ∧ text.length = n ∧ Foremost kind text rest := by
  obtain ⟨fits, admits⟩ := admits_of_at? h
  have length : (cs.take n).length = n := by rw [List.length_take, Nat.min_eq_left fits]
  refine ⟨cs.take n, cs.drop n, (List.take_append_drop n cs).symm, length, admits, ?_⟩
  rw [List.take_append_drop, length]
  rintro kind' text' admits' ⟨rest, rfl⟩
  obtain ⟨m, found, le⟩ := at?_of_admits admits' rest
  rw [h] at found
  cases found
  exact le

/-- Nothing is read where no class admits a text. -/
theorem at?_eq_none_iff {cs : List Char} :
    at? cs = none ↔ ∀ (kind : Kind) (text : List Char), kind.Admits text → ¬ text <+: cs := by
  constructor
  · rintro h kind text admits ⟨rest, rfl⟩
    obtain ⟨n, found, -⟩ := at?_of_admits admits rest
    rw [h] at found
    cases found
  · intro h
    cases found : at? cs with
    | none => rfl
    | some r => exact absurd (List.take_prefix _ _) (h _ _ (admits_of_at? found).2)

end Toolbar.Expr.Lexeme
