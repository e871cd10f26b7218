/-
# `Toolbar.Proofs.Expr.Numeral` — the number that a numeral denotes

A numeral is a row of digits, of any script, with a fraction and an exponent that may be missing.
By itself the row denotes an integer; with either of the two it denotes the double nearest to the
decimal.  `Denotes` says so without reading anything, and the two main statements tie it to what
runs:

    exists_denotes     every number lexeme is a numeral
    number_eq_ok       a numeral is read as what it denotes, an integer if it is not too long
-/
import Toolbar.Proofs.Expr.Lexeme
import Toolbar.Proofs.Text.Lines

namespace Toolbar

open Text

/-! ## Digits -/

namespace Text

theorem digitValue?_lt {c : Char} {d : Nat} (h : digitValue? c = some d) : d < 10 := by
  have block : ∀ {n z : Nat} {zs : List Nat}, blockZero? n zs = some z → n - z < 10 := by
    intro n z zs hz
    induction zs with
    | nil => cases hz
    | cons z' zs ih =>
        simp only [blockZero?] at hz
        split at hz
        next hin =>
          cases hz
          simp only [Bool.and_eq_true, decide_eq_true_eq] at hin
          omega
        next => exact ih hz
  obtain ⟨z, hz, rfl⟩ := Option.map_eq_some_iff.mp h
  exact block hz

theorem digitValue?_digitChar : ∀ d < 10, digitValue? (digitChar d) = some d := by
  decide

theorem isAsciiDigit_digitChar : ∀ d < 10, isAsciiDigit (digitChar d) = true := by
  decide

/-- No blank is a digit of any script. -/
theorem isDigit_of_isBlank {c : Char} (h : isBlank c = true) : isDigit c = false := by
  have no_block : ∀ n ∈ [0x09, 0x0A, 0x0B, 0x0C, 0x0D, 0x1C, 0x1D, 0x1E, 0x1F, 0x20, 0x85, 0xA0,
      0x1680, 0x2000, 0x2001, 0x2002, 0x2003, 0x2004, 0x2005, 0x2006, 0x2007, 0x2008, 0x2009,
      0x200A, 0x2028, 0x2029, 0x202F, 0x205F, 0x3000], blockZero? n digitZeros = none := by
    decide +kernel
  have hnone : blockZero? c.toNat digitZeros = none := by
    refine no_block _ ?_
    simp only [isBlank, Bool.or_eq_true, Bool.and_eq_true, decide_eq_true_eq, beq_iff_eq] at h
    simp only [List.mem_cons, List.not_mem_nil, or_false]
    omega
  simp [isDigit, digitValue?, hnone]

end Text

namespace Number

variable {ds cs : List Char}

theorem plainDigits_append (as bs : List Char) :
    plainDigits (as ++ bs) = plainDigits as ++ plainDigits bs :=
  List.map_append

theorem plainDigits_cons_of_not_digit {c : Char} (h : digitValue? c = none) :
    plainDigits (c :: cs) = c :: plainDigits cs := by
  simp [plainDigits, h]

@[simp] theorem length_plainDigits (cs : List Char) : (plainDigits cs).length = cs.length :=
  List.length_map _

theorem isAsciiDigit_of_mem_plainDigits (h : ∀ d ∈ ds, isDigit d = true) :
    ∀ c ∈ plainDigits ds, isAsciiDigit c = true := by
  intro c hc
  obtain ⟨d, hd, rfl⟩ := List.mem_map.mp hc
  obtain ⟨n, hn⟩ := Option.isSome_iff_exists.mp (h d hd)
  simp only [hn]
  exact isAsciiDigit_digitChar n (digitValue?_lt hn)

/-- Digits of another script denote what the ASCII digits in their places do. -/
theorem digitsValue_plainDigits (cs : List Char) : digitsValue (plainDigits cs) = digitsValue cs := by
  rw [digitsValue, plainDigits, List.foldl_map, digitsValue]
  congr 1
  funext n c
  cases hc : digitValue? c with
  | none => exact congrArg (fun value => 10 * n + value.getD 0) hc
  | some d =>
      exact congrArg (fun value => 10 * n + value.getD 0) (digitValue?_digitChar d (digitValue?_lt hc))

theorem dropUnderscores?_eq_self (h : '_' ∉ cs) (afterDigit : Bool) :
    dropUnderscores? afterDigit cs = some cs := by
  induction cs generalizing afterDigit with
  | nil => rfl
  | cons c cs ih =>
      have hc : c ≠ '_' := fun hc => h (hc ▸ List.mem_cons_self)
      have hcs : '_' ∉ cs := fun hcs => h (List.mem_cons_of_mem _ hcs)
      rw [dropUnderscores?, ih hcs]
      · rfl
      · exact hc

theorem signOf_eq_of_digit {c : Char} (h : isAsciiDigit c = true) :
    signOf (c :: cs) = (false, c :: cs) := by
  unfold signOf
  split
  next heq => cases heq; exact absurd h (by decide)
  next heq => cases heq; exact absurd h (by decide)
  next => rfl

/-- Nothing is stripped from what begins and ends with a digit. -/
theorem stripBy_eq_self {c d : Char} (hc : isDigit c = true) (hd : isDigit d = true)
    (hhead : cs.head? = some c) (hlast : cs.getLast? = some d) : stripBy isPadding cs = cs := by
  have kept : ∀ {c : Char}, isDigit c = true → isPadding c = false := by
    intro c hc
    refine Bool.eq_false_iff.mpr fun padding => ?_
    simp only [isPadding, Bool.and_eq_true] at padding
    rw [isDigit_of_isBlank padding.1] at hc
    exact Bool.noConfusion hc
  have ends : ∀ e, cs.head? = some e ∨ cs.getLast? = some e → isPadding e = false := by
    rintro e (he | he)
    · obtain rfl := Option.some.inj (hhead.symm.trans he)
      exact kept hc
    · obtain rfl := Option.some.inj (hlast.symm.trans he)
      exact kept hd
  exact (stripped_iff.mp ⟨[], [], by simp, nofun, nofun, ends⟩).symm

end Number

/-! ## Numerals -/

namespace Expr

open Number Lexeme

/-- The digits of a fraction behind a numeral. -/
inductive Fraction : List Char → List Char → Prop
  | none : Fraction [] []
  | point {ds : List Char} : ds ≠ [] → (∀ d ∈ ds, isDigit d = true) → Fraction ('.' :: ds) ds

/-- The exponent behind a numeral. -/
inductive Exponent : List Char → Int → Prop
  | none : Exponent [] 0
  | unsigned {c : Char} {ds : List Char} : c = 'e' ∨ c = 'E' → ds ≠ [] →
      (∀ d ∈ ds, isDigit d = true) → Exponent (c :: ds) (digitsValue ds)
  | signed {c : Char} {ds : List Char} (negative : Bool) : c = 'e' ∨ c = 'E' → ds ≠ [] →
      (∀ d ∈ ds, isDigit d = true) →
      Exponent (c :: (if negative then '-' else '+') :: ds)
        (if negative then -(digitsValue ds : Int) else (digitsValue ds : Int))

/-- The number that a numeral denotes. -/
inductive Denotes : List Char → Value → Prop
  | integer {ds : List Char} : ds ≠ [] → (∀ d ∈ ds, isDigit d = true) →
      Denotes ds (.int (digitsValue ds))
  | decimal {ds fraction fs exponent : List Char} {e : Int} : ds ≠ [] →
      (∀ d ∈ ds, isDigit d = true) → Fraction fraction fs → Exponent exponent e →
      fraction ++ exponent ≠ [] →
      Denotes (ds ++ (fraction ++ exponent)) (.real (Binary64.ofDecimal false
        (digitsValue (ds ++ fs)) (ds ++ fs).length (e - (fs.length : Int))))

variable {cs ds fraction fs exponent : List Char} {e : Int}

/-! ### Reading a numeral -/

theorem ascii_digits_split (hds : ∀ d ∈ ds, isDigit d = true) {rest : List Char}
    (hrest : ∀ c ∈ rest.head?, isAsciiDigit c = false) :
    (plainDigits ds ++ rest).takeWhile isAsciiDigit = plainDigits ds ∧
      (plainDigits ds ++ rest).dropWhile isAsciiDigit = rest := by
  have hplain := isAsciiDigit_of_mem_plainDigits hds
  rw [List.takeWhile_append_of_pos hplain, List.dropWhile_append_of_pos hplain]
  cases rest with
  | nil => simp
  | cons c rest => simp [hrest c rfl]

theorem exponent?_of_exponent (h : Exponent exponent e) :
    exponent? (plainDigits exponent) = some e := by
  have plain_ne : ∀ {ds : List Char}, ds ≠ [] → (plainDigits ds).isEmpty = false := by
    intro ds hne
    simpa [plainDigits] using hne
  have plain_all : ∀ {ds : List Char}, (∀ d ∈ ds, isDigit d = true) →
      (plainDigits ds).all isAsciiDigit = true := fun hds =>
    List.all_eq_true.mpr (isAsciiDigit_of_mem_plainDigits hds)
  have letter : ∀ {c : Char}, c = 'e' ∨ c = 'E' → digitValue? c = none ∧
      (c == 'e' || c == 'E') = true := by
    rintro c (rfl | rfl) <;> exact ⟨by decide, by decide⟩
  cases h with
  | none => rfl
  | @unsigned c ds hc hne hds =>
      obtain ⟨hdigit, hletter⟩ := letter hc
      have hsign : signOf (plainDigits ds) = (false, plainDigits ds) := by
        cases hplain : plainDigits ds with
        | nil => rfl
        | cons d ds' =>
            refine signOf_eq_of_digit (isAsciiDigit_of_mem_plainDigits hds d ?_)
            rw [hplain]
            exact List.mem_cons_self
      rw [plainDigits_cons_of_not_digit hdigit]
      simp [exponent?, hletter, hsign, plain_ne hne, plain_all hds, digitsValue_plainDigits]
  | @signed c ds negative hc hne hds =>
      obtain ⟨hdigit, hletter⟩ := letter hc
      rw [plainDigits_cons_of_not_digit hdigit]
      cases negative
      · rw [plainDigits_cons_of_not_digit (by decide)]
        simp [exponent?, hletter, signOf, plain_ne hne, plain_all hds, digitsValue_plainDigits]
      · rw [plainDigits_cons_of_not_digit (by decide)]
        simp [exponent?, hletter, signOf, plain_ne hne, plain_all hds, digitsValue_plainDigits]

/-- An exponent begins with its letter. -/
theorem plainDigits_exponent (h : Exponent exponent e) :
    plainDigits exponent = [] ∨
      ∃ c tail, (c = 'e' ∨ c = 'E') ∧ plainDigits exponent = c :: tail := by
  have letter : ∀ {c : Char} {ds : List Char}, c = 'e' ∨ c = 'E' →
      plainDigits (c :: ds) = c :: plainDigits ds := by
    rintro c ds (rfl | rfl) <;> exact plainDigits_cons_of_not_digit (by decide)
  cases h with
  | none => exact .inl rfl
  | unsigned hc => exact .inr ⟨_, _, hc, letter hc⟩
  | signed _ hc => exact .inr ⟨_, _, hc, letter hc⟩

theorem decimal?_no_point {whole rest : List Char} (htake : cs.takeWhile isAsciiDigit = whole)
    (hdrop : cs.dropWhile isAsciiDigit = rest) (hne : whole ≠ []) (hpoint : ∀ r, rest ≠ '.' :: r) :
    decimal? false cs = (exponent? rest).map fun e =>
      Binary64.ofDecimal false (digitsValue whole) whole.length e := by
  simp [decimal?, htake, hdrop, hne]

theorem decimal?_point {whole r : List Char} (htake : cs.takeWhile isAsciiDigit = whole)
    (hdrop : cs.dropWhile isAsciiDigit = '.' :: r) (hne : whole ≠ []) :
    decimal? false cs = (exponent? (r.dropWhile isAsciiDigit)).map fun e =>
      Binary64.ofDecimal false (digitsValue (whole ++ r.takeWhile isAsciiDigit))
        (whole ++ r.takeWhile isAsciiDigit).length
        (e - ((r.takeWhile isAsciiDigit).length : Int)) := by
  simp [decimal?, htake, hdrop, hne]

theorem decimal?_of_parts (hne : ds ≠ []) (hds : ∀ d ∈ ds, isDigit d = true)
    (hfraction : Fraction fraction fs) (hexponent : Exponent exponent e) :
    decimal? false (plainDigits (ds ++ (fraction ++ exponent))) =
      some (Binary64.ofDecimal false (digitsValue (ds ++ fs)) (ds ++ fs).length
        (e - (fs.length : Int))) := by
  have hread := exponent?_of_exponent hexponent
  have hplain : plainDigits ds ≠ [] := by simpa [plainDigits] using hne
  -- The digits before the exponent end where it begins.
  have hhead : ∀ c ∈ (plainDigits exponent).head?, isAsciiDigit c = false ∧ c ≠ '.' := by
    intro c hc
    rcases plainDigits_exponent hexponent with heq | ⟨c', tail, hletter, heq⟩
    · rw [heq] at hc
      cases hc
    · rw [heq] at hc
      cases hc
      rcases hletter with rfl | rfl <;> exact ⟨by decide, by decide⟩
  cases hfraction with
  | none =>
      rw [List.nil_append, plainDigits_append]
      obtain ⟨htake, hdrop⟩ := ascii_digits_split hds fun c hc => (hhead c hc).1
      have hpoint : ∀ r, plainDigits exponent ≠ '.' :: r := by
        intro r heq
        rw [heq] at hhead
        exact (hhead '.' rfl).2 rfl
      rw [decimal?_no_point htake hdrop hplain hpoint, hread, digitsValue_plainDigits]
      simp
  | @point fs _ hfs =>
      have hpoint : plainDigits ('.' :: fs ++ exponent) =
          '.' :: (plainDigits fs ++ plainDigits exponent) := by
        rw [List.cons_append, plainDigits_cons_of_not_digit (by decide), plainDigits_append]
      rw [plainDigits_append, hpoint]
      have hmark : ∀ c ∈ ('.' :: (plainDigits fs ++ plainDigits exponent)).head?,
          isAsciiDigit c = false := by simp [isAsciiDigit]
      obtain ⟨htake, hdrop⟩ := ascii_digits_split hds hmark
      obtain ⟨htake', hdrop'⟩ := ascii_digits_split hfs fun c hc => (hhead c hc).1
      rw [decimal?_point htake hdrop hplain, htake', hdrop', hread, ← plainDigits_append,
        digitsValue_plainDigits]
      simp

/-- The characters of a numeral. -/
theorem mem_numeral (hds : ∀ d ∈ ds, isDigit d = true) (hfraction : Fraction fraction fs)
    (hexponent : Exponent exponent e) :
    ∀ c ∈ ds ++ (fraction ++ exponent), isDigit c = true ∨ c ∈ ['.', 'e', 'E', '+', '-'] := by
  intro c hc
  rcases List.mem_append.mp hc with hc | hc
  · exact .inl (hds c hc)
  rcases List.mem_append.mp hc with hc | hc
  · cases hfraction with
    | none => cases hc
    | point _ hfs =>
        rcases List.mem_cons.mp hc with rfl | hc
        · exact .inr (by decide)
        · exact .inl (hfs c hc)
  · cases hexponent with
    | none => cases hc
    | unsigned hletter _ hes =>
        rcases List.mem_cons.mp hc with rfl | hc
        · rcases hletter with rfl | rfl <;> exact .inr (by decide)
        · exact .inl (hes c hc)
    | signed negative hletter _ hes =>
        rcases List.mem_cons.mp hc with rfl | hc
        · rcases hletter with rfl | rfl <;> exact .inr (by decide)
        rcases List.mem_cons.mp hc with rfl | hc
        · cases negative <;> exact .inr (by decide)
        · exact .inl (hes c hc)

/-- A numeral ends with a digit. -/
theorem getLast?_numeral (hne : ds ≠ []) (hds : ∀ d ∈ ds, isDigit d = true)
    (hfraction : Fraction fraction fs) (hexponent : Exponent exponent e) :
    ∃ d, (ds ++ (fraction ++ exponent)).getLast? = some d ∧ isDigit d = true := by
  have last : ∀ {l : List Char}, l ≠ [] → (∀ d ∈ l, isDigit d = true) → ∀ front : List Char,
      ∃ d, (front ++ l).getLast? = some d ∧ isDigit d = true := by
    intro l hl hall front
    refine ⟨l.getLast hl, ?_, hall _ (List.getLast_mem hl)⟩
    rw [List.getLast?_append, List.getLast?_eq_some_getLast hl]
    rfl
  cases hexponent with
  | none =>
      cases hfraction with
      | none => simpa using last hne hds []
      | point hfs hall => simpa using last hfs hall (ds ++ ['.'])
  | @unsigned c _ _ hes hall => simpa using last hes hall (ds ++ (fraction ++ [c]))
  | @signed c _ negative _ hes hall =>
      simpa using last hes hall (ds ++ (fraction ++ [c, if negative then '-' else '+']))

theorem readReal?_of_parts (hne : ds ≠ []) (hds : ∀ d ∈ ds, isDigit d = true)
    (hfraction : Fraction fraction fs) (hexponent : Exponent exponent e) :
    readReal? (String.ofList (ds ++ (fraction ++ exponent))) =
      some (Binary64.ofDecimal false (digitsValue (ds ++ fs)) (ds ++ fs).length
        (e - (fs.length : Int))) := by
  obtain ⟨d, tail, rfl⟩ := List.exists_cons_of_ne_nil hne
  obtain ⟨last, hlast, hdigit⟩ := getLast?_numeral hne hds hfraction hexponent
  have hd : isDigit d = true := hds d List.mem_cons_self
  have hstrip := stripBy_eq_self hd hdigit rfl hlast
  have hscore : '_' ∉ plainDigits (d :: tail ++ (fraction ++ exponent)) := by
    intro hmem
    obtain ⟨c, hc, heq⟩ := List.mem_map.mp hmem
    cases hvalue : digitValue? c with
    | some n =>
        simp only [hvalue] at heq
        have hascii := isAsciiDigit_digitChar n (digitValue?_lt hvalue)
        rw [heq] at hascii
        exact absurd hascii (by decide)
    | none =>
        simp only [hvalue] at heq
        rcases mem_numeral hds hfraction hexponent c hc with hdig | hmark
        · rw [isDigit, hvalue] at hdig
          exact Bool.noConfusion hdig
        · rw [heq] at hmark
          exact absurd hmark (by decide)
  have hfirst : ∀ c ∈ [d], isDigit c = true := by simpa using hd
  have hsign : signOf (plainDigits (d :: tail ++ (fraction ++ exponent))) =
      (false, plainDigits (d :: tail ++ (fraction ++ exponent))) :=
    signOf_eq_of_digit (isAsciiDigit_of_mem_plainDigits hfirst _ List.mem_cons_self)
  rw [readReal?, String.toList_ofList, hstrip, dropUnderscores?_eq_self hscore]
  simp only [Option.bind_eq_bind, Option.bind_some, hsign, unsigned?,
    decimal?_of_parts hne hds hfraction hexponent]

theorem readInt_of_digits (hne : ds ≠ []) (hds : ∀ d ∈ ds, isDigit d = true)
    (short : ds.length ≤ digitLimit) :
    readInt (String.ofList ds) = .ok (digitsValue ds) := by
  have hascii := isAsciiDigit_of_mem_plainDigits hds
  have hplain : plainDigits ds ≠ [] := by simpa [plainDigits] using hne
  have hstrip : stripBy isPadding ds = ds :=
    stripBy_eq_self (hds _ (List.head_mem hne)) (hds _ (List.getLast_mem hne))
      (List.head?_eq_some_head hne) (List.getLast?_eq_some_getLast hne)
  have hsign : signOf (plainDigits ds) = (false, plainDigits ds) := by
    obtain ⟨c, tail, heq⟩ := List.exists_cons_of_ne_nil hplain
    rw [heq]
    refine signOf_eq_of_digit (hascii c ?_)
    rw [heq]
    exact List.mem_cons_self
  have hscore : '_' ∉ plainDigits ds := fun hmem => absurd (hascii _ hmem) (by decide)
  have hall : (plainDigits ds).all isAsciiDigit = true := List.all_eq_true.mpr hascii
  rw [readInt, String.toList_ofList, hstrip]
  simp only [hsign, dropUnderscores?_eq_self hscore]
  simp [hplain, hall, integerOf, short, digitsValue_plainDigits]

/-- A numeral is read as the number that it denotes, unless it is an integer that is too long. -/
theorem number_eq_ok {v : Value} (h : Denotes cs v)
    (short : cs.all isDigit = true → cs.length ≤ digitLimit) : Parser.number cs = .ok v := by
  cases h with
  | integer hne hds =>
      have hall : cs.all isDigit = true := List.all_eq_true.mpr hds
      simp only [Parser.number, hall, if_true, readInt_of_digits hne hds (short hall)]
  | @decimal ds fraction fs exponent e hne hds hfraction hexponent hbehind =>
      have not_all : (ds ++ (fraction ++ exponent)).all isDigit = false := by
        refine List.all_eq_false.mpr ?_
        have mark : ∀ {c : Char}, c ∈ ['.', 'e', 'E'] → ¬ isDigit c = true := by
          intro c hc
          simp only [List.mem_cons, List.not_mem_nil, or_false] at hc
          rcases hc with rfl | rfl | rfl <;> decide
        cases hfraction with
        | point _ _ => exact ⟨'.', by simp, mark (by decide)⟩
        | none =>
            cases hexponent with
            | none => exact absurd rfl hbehind
            | @unsigned c _ hc _ _ => exact ⟨c, by simp, mark (by simp [hc])⟩
            | @signed c _ _ hc _ _ => exact ⟨c, by simp, mark (by simp [hc])⟩
      simp only [Parser.number, not_all, readReal?_of_parts hne hds hfraction hexponent]
      rfl

/-! ### Number lexemes -/

/-- The digits that a text begins with. -/
theorem take_digitCount (cs : List Char) :
    (∀ d ∈ cs.take (digitCount cs), isDigit d = true) ∧
      (cs.take (digitCount cs)).length = digitCount cs := by
  rw [digitCount, ← List.prefix_iff_eq_take.mp (List.takeWhile_prefix isDigit)]
  exact ⟨fun d hd => mem_takeWhile hd, rfl⟩

theorem ne_nil_of_digitCount (h : digitCount cs ≠ 0) : cs.take (digitCount cs) ≠ [] := by
  intro hnil
  have hlength := (take_digitCount cs).2
  rw [hnil] at hlength
  exact h hlength.symm

theorem exists_fraction (cs : List Char) : ∃ fs, Fraction (cs.take (fractionLength cs)) fs := by
  unfold fractionLength
  split
  next cs =>
    split
    · exact ⟨[], .none⟩
    next hcount =>
      rw [Nat.add_comm, List.take_succ_cons]
      exact ⟨_, .point (ne_nil_of_digitCount hcount) (take_digitCount cs).1⟩
  next => exact ⟨[], .none⟩

theorem exists_exponent (cs : List Char) : ∃ e, Exponent (cs.take (exponentLength cs)) e := by
  unfold exponentLength
  split
  next c cs =>
    split
    next hletter =>
      have hc : c = 'e' ∨ c = 'E' := by simpa using hletter
      split
      next s ds =>
        split
        next hsign =>
          split
          · exact ⟨0, .none⟩
          next hcount =>
            rw [Nat.add_comm, List.take_succ_cons, List.take_succ_cons]
            have hs : s = '+' ∨ s = '-' := by simpa using hsign
            rcases hs with rfl | rfl
            · exact ⟨_, .signed false hc (ne_nil_of_digitCount hcount) (take_digitCount ds).1⟩
            · exact ⟨_, .signed true hc (ne_nil_of_digitCount hcount) (take_digitCount ds).1⟩
        next =>
          split
          · exact ⟨0, .none⟩
          next hcount =>
            rw [Nat.add_comm, List.take_succ_cons]
            exact ⟨_, .unsigned hc (ne_nil_of_digitCount hcount) (take_digitCount _).1⟩
      next => exact ⟨0, .none⟩
    next => exact ⟨0, .none⟩
  next => exact ⟨0, .none⟩

theorem exists_denotes_of_parts (hne : ds ≠ []) (hds : ∀ d ∈ ds, isDigit d = true)
    (hfraction : Fraction fraction fs) (hexponent : Exponent exponent e) :
    ∃ v, Denotes (ds ++ (fraction ++ exponent)) v := by
  by_cases hbehind : fraction ++ exponent = []
  · rw [hbehind, List.append_nil]
    exact ⟨_, .integer hne hds⟩
  · exact ⟨_, .decimal hne hds hfraction hexponent hbehind⟩

/-- Every number lexeme is a numeral. -/
theorem exists_denotes {n : Nat} (h : numberLength? cs = some n) :
    ∃ v, Denotes (cs.take n) v := by
  simp only [numberLength?] at h
  split at h
  · cases h
  next hcount =>
    cases h
    rw [List.take_add, List.take_add, List.append_assoc]
    obtain ⟨fs, hfraction⟩ := exists_fraction (cs.drop (digitCount cs))
    obtain ⟨e, hexponent⟩ :=
      exists_exponent (cs.drop (digitCount cs + fractionLength (cs.drop (digitCount cs))))
    exact exists_denotes_of_parts (ne_nil_of_digitCount hcount) (take_digitCount cs).1 hfraction
      hexponent

/-- Where a numeral can be read, the number read is what it denotes, and it denotes one number. -/
theorem number_eq_ok_iff {v : Value} (h : ∃ v, Denotes cs v)
    (short : cs.all isDigit = true → cs.length ≤ digitLimit) :
    Parser.number cs = .ok v ↔ Denotes cs v := by
  constructor
  · intro hread
    obtain ⟨w, hw⟩ := h
    rw [number_eq_ok hw short] at hread
    cases hread
    exact hw
  · exact fun hv => number_eq_ok hv short

end Expr

end Toolbar
