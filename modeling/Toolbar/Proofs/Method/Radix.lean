/-
# `Toolbar.Proofs.Method.Radix` — integers in every radix

The text of an integer in a radix is a numeral: its characters are digits below the radix, their sum
by places is the absolute value, and no zero stands in front of another digit.  A numeral grows by
one digit at its end (`Spells.next`), so what the loop has split off from the end of a number, and
what it still has to split, make up the numeral of the whole (`spells_digitsInFront`).

The method asks first whether the number has a fraction, and asks a double for it.  The double of an
integer never has one, but integers from a bound on have no double (`Binary64.overflow`); radix ten
does without the question.

    Spells       characters are the digits of a number in a radix
    IsNumeral    the same with a sign, for an integer
-/
import Mathlib.Data.Nat.Digits.Defs
import Toolbar.Proofs.Method.Results
import Toolbar.Proofs.Number.Range
import Toolbar.Proofs.Value.Reading

namespace Toolbar.Method

open Text

/-! ## Numerals -/

/-- The value of a digit of any radix up to 36, and nothing for any other character. -/
def digitOf? (c : Char) : Option Nat :=
  if '0' ≤ c ∧ c ≤ '9' then some (c.toNat - '0'.toNat)
  else if 'a' ≤ c ∧ c ≤ 'z' then some (10 + (c.toNat - 'a'.toNat))
  else none

/-- The characters are digits with the values `ds`, and these are the digits of `n`: below the
radix, with `n` for their sum by places, and a zero in front only when it is alone. -/
structure Spells (radix : Nat) (cs : List Char) (ds : List Nat) (n : Nat) : Prop where
  read : cs.map digitOf? = ds.map some
  below : ∀ d ∈ ds, d < radix
  value : Nat.ofDigits radix ds.reverse = n
  leading : ∃ d rest, ds = d :: rest ∧ (d = 0 → rest = [])

variable {radix n : Nat} {cs : List Char} {ds : List Nat}

/-- The digits up to 36 are read with their values. -/
theorem digitOf?_radixDigit : ∀ d < 36, digitOf? (radixDigit d) = some d := by
  decide

theorem Spells.digit {d : Nat} {c : Char} (read : digitOf? c = some d) (below : d < radix) :
    Spells radix [c] [d] d where
  read := by rw [List.map_singleton, List.map_singleton, read]
  below := by
    intro e he
    rw [List.mem_singleton.mp he]
    exact below
  value := by rw [List.reverse_singleton, Nat.ofDigits_singleton]
  leading := ⟨d, [], rfl, fun _ => rfl⟩

/-- One more digit at the end of a number other than zero. -/
theorem Spells.next (h : Spells radix cs ds n) (nonzero : n ≠ 0) {d : Nat} {c : Char}
    (read : digitOf? c = some d) (below : d < radix) :
    Spells radix (cs ++ [c]) (ds ++ [d]) (radix * n + d) where
  read := by
    rw [List.map_append, List.map_append, h.read, List.map_singleton, List.map_singleton, read]
  below := by
    intro e he
    rcases List.mem_append.mp he with he | he
    · exact h.below e he
    · rw [List.mem_singleton.mp he]
      exact below
  value := by
    rw [List.reverse_append, List.reverse_singleton, List.singleton_append, Nat.ofDigits_cons,
      h.value]
    exact Nat.add_comm d (radix * n)
  leading := by
    obtain ⟨e, rest, rfl, alone⟩ := h.leading
    refine ⟨e, rest ++ [d], rfl, ?_⟩
    rintro rfl
    -- zero in front would be all of the number
    have zero : n = 0 := by
      rw [← h.value, alone rfl]
      rfl
    exact absurd zero nonzero

/-- What is split off from the end comes behind the numeral of what is left. -/
theorem spells_digitsInFront (low : 2 ≤ radix) (high : radix ≤ 36) (n : Nat) (behind : List Char) :
    ∃ cs ds, digitsInFront radix n behind = cs ++ behind ∧ Spells radix cs ds n := by
  induction n using Nat.strongRecOn generalizing behind with
  | ind n ih =>
      by_cases single : n < radix
      · rw [digitsInFront, dif_pos (.inr single)]
        exact ⟨[radixDigit n], [n], rfl, .digit (digitOf?_radixDigit n (by omega)) single⟩
      · rw [digitsInFront, dif_neg (by omega)]
        have positive : 0 < n / radix := Nat.div_pos (by omega) (by omega)
        have last : n % radix < radix := Nat.mod_lt n (by omega)
        obtain ⟨cs, ds, split, spells⟩ := ih (n / radix) (Nat.div_lt_self (by omega) (by omega))
          (radixDigit (n % radix) :: behind)
        refine ⟨cs ++ [radixDigit (n % radix)], ds ++ [n % radix], ?_, ?_⟩
        · rw [split, List.append_assoc, List.singleton_append]
        · have more := spells.next (by omega) (digitOf?_radixDigit (n % radix) (by omega)) last
          rwa [Nat.div_add_mod] at more

/-- Decimal digits are written by another rule, and are the same numeral. -/
theorem spells_decimalDigits (n : Nat) : ∃ ds, Spells 10 (decimalDigits n) ds n := by
  have read : ∀ d < 10, digitOf? d.digitChar = some d := by decide
  refine decimalDigits_induction (motive := fun n cs => ∃ ds, Spells 10 cs ds n) ?_ ?_ n
  · intro d hd
    exact ⟨[d], .digit (read d hd) hd⟩
  · rintro n cs nonzero ⟨ds, spells⟩ d hd
    exact ⟨ds ++ [d], spells.next nonzero (read d hd) hd⟩

/-- Characters spell one number at most. -/
theorem Spells.unique {m : Nat} {es : List Nat} (h : Spells radix cs ds m)
    (h' : Spells radix cs es n) : m = n := by
  have same : ds = es := List.map_injective_iff.mpr (Option.some_injective _)
    (h.read.symm.trans h'.read)
  rw [← h.value, ← h'.value, same]

/-- No numeral has a minus sign. -/
theorem Spells.unsigned (h : Spells radix cs ds n) : '-' ∉ cs := by
  intro minus
  have none : digitOf? '-' ∈ ds.map some := by
    rw [← h.read]
    exact List.mem_map_of_mem minus
  obtain ⟨d, -, hd⟩ := List.mem_map.mp none
  cases hd

/-- The numeral of the absolute value, with a minus sign in front when the integer is negative. -/
def IsNumeral (radix : Nat) (i : Int) (w : List Char) : Prop :=
  ∃ cs ds, w = (if i < 0 then '-' :: cs else cs) ∧ Spells radix cs ds i.natAbs

/-- A text is the numeral of one integer at most. -/
theorem IsNumeral.unique {i j : Int} {w : List Char} (h : IsNumeral radix i w)
    (h' : IsNumeral radix j w) : i = j := by
  obtain ⟨cs, ds, rfl, spells⟩ := h
  obtain ⟨cs', ds', same, spells'⟩ := h'
  split at same
  next negative =>
    split at same
    next negative' =>
      cases same
      have := spells.unique spells'
      omega
    next =>
      rw [← same] at spells'
      exact absurd List.mem_cons_self spells'.unsigned
  next nonnegative =>
    split at same
    next =>
      rw [same] at spells
      exact absurd List.mem_cons_self spells.unsigned
    next nonnegative' =>
      cases same
      have := spells.unique spells'
      omega

theorem isNumeral_inRadix (low : 2 ≤ radix) (high : radix ≤ 36) (i : Int) :
    IsNumeral radix i (inRadix radix i) := by
  obtain ⟨cs, ds, split, spells⟩ := spells_digitsInFront low high i.natAbs []
  refine ⟨cs, ds, ?_, spells⟩
  rw [inRadix, Binary64.signed, split, List.append_nil]
  simp only [decide_eq_true_eq]

example : inRadix 16 (-255) = ['-', 'f', 'f'] := by cbv

/-! ## The method -/

variable {i : Int}

/-- An integer with a double is whole. -/
theorem whole?_int (small : i.natAbs < Binary64.overflow) : whole? (.int i) = .ok (some i) := by
  obtain ⟨x, hx⟩ := Number.toReal_int_iff.mpr small
  have integer := Number.isInteger_of_toReal hx
  show (Number.int i).toReal >>= _ = _
  rw [hx]
  show (if x.isInteger then _ else _) = _
  rw [if_pos integer]
  rfl

/-- Radix ten is that of the display. -/
theorem display_int (small : i.natAbs < Binary64.overflow) :
    ∃ w, (Value.num (.int i)).display = .ok (String.ofList w) ∧ IsNumeral 10 i w := by
  obtain ⟨ds, spells⟩ := spells_decimalDigits i.natAbs
  have short : ¬ (decimalDigits i.natAbs).length > Number.digitLimit := by
    intro long
    have some := Number.intText?_isSome_of_lt (Nat.lt_of_lt_of_le small Binary64.overflow_le)
    rw [Number.intText?, if_pos long] at some
    cases some
  refine ⟨Binary64.signed (i < 0) (decimalDigits i.natAbs), ?_, decimalDigits i.natAbs, ds, ?_,
    spells⟩
  · refine Value.display_eq_ok.mpr ?_
    show Number.intText? i = _
    rw [Number.intText?, if_neg short]
  · rw [Binary64.signed]
    simp only [decide_eq_true_eq]

theorem toRadix_int (small : i.natAbs < Binary64.overflow) (low : 2 ≤ radix) (high : radix ≤ 36) :
    ∃ w, toRadix (.int i) (.int radix) = .ok (.text (String.ofList w)) ∧ IsNumeral radix i w := by
  by_cases ten : radix = 10
  · subst ten
    obtain ⟨w, display, numeral⟩ := display_int small
    refine ⟨w, ?_, numeral⟩
    show (Value.num (.int i)).display >>= _ = _
    rw [display]
    rfl
  · refine ⟨inRadix radix i, ?_, isNumeral_inRadix low high i⟩
    have other : ¬ (radix : Int) = 10 := by omega
    have inside : 2 ≤ (radix : Int) ∧ (radix : Int) ≤ 36 := by omega
    show (if (radix : Int) = 10 then _ else whole? (.int i) >>= _) = _
    rw [if_neg other, whole?_int small]
    show (if 2 ≤ (radix : Int) ∧ (radix : Int) ≤ 36 then _ else _) = _
    rw [if_pos inside, Int.toNat_natCast]
    rfl

/-- **The text of an integer in a radix is exact.**  Every integer that converts to a double has a
text in each radix from 2 to 36: a minus sign when it is negative, and then digits below the radix
whose sum by places is its absolute value, the first of them a zero only for zero itself.  So two
such integers never have one text. -/
theorem radix_exact {radix : Nat} (low : 2 ≤ radix) (high : radix ≤ 36) {i : Int} {x : Binary64}
    (converts : (Number.int i).toReal = .ok x) :
    (∃ w, call? (.int i) "toString" [.int radix] = some (.ok (.text (String.ofList w))) ∧
      IsNumeral radix i w) ∧
    ∀ (j : Int) (y : Binary64), (Number.int j).toReal = .ok y →
      call? (.int j) "toString" [.int radix] = call? (.int i) "toString" [.int radix] → j = i := by
  have method (k : Int) : call? (.int k) "toString" [.int radix] =
      some (toRadix (.int k) (.int radix)) := rfl
  have small := Number.toReal_int_iff.mp ⟨x, converts⟩
  obtain ⟨w, text, numeral⟩ := toRadix_int small low high
  rw [method, text]
  refine ⟨⟨w, rfl, numeral⟩, ?_⟩
  intro j y converts' same
  have small' := Number.toReal_int_iff.mp ⟨y, converts'⟩
  obtain ⟨w', text', numeral'⟩ := toRadix_int small' low high
  rw [method, text'] at same
  injection same with same
  injection same with same
  injection same with same
  rw [String.ofList_injective same] at numeral'
  exact numeral'.unique numeral

/-- The double of two neighbours beyond the precision of doubles. -/
def sharedDouble : Binary64 := .finite true (2 ^ 52) 1

/-- Two integers have one double, and in radix 36 they have their own texts. -/
theorem sharedDouble_exact :
    2 ≤ 36 ∧ 36 ≤ 36 ∧ (Number.int (-9007199254740993)).toReal = .ok sharedDouble ∧
      (Number.int (-9007199254740992)).toReal = .ok sharedDouble ∧
      (∃ w, call? (.int (-9007199254740993)) "toString" [.int (36 : Nat)] =
        some (.ok (.text (String.ofList w))) ∧ IsNumeral 36 (-9007199254740993) w) ∧
      call? (.int (-9007199254740992)) "toString" [.int (36 : Nat)] ≠
        call? (.int (-9007199254740993)) "toString" [.int (36 : Nat)] := by
  have here : (Number.int (-9007199254740993)).toReal = .ok sharedDouble := by decide +kernel
  have beside : (Number.int (-9007199254740992)).toReal = .ok sharedDouble := by decide +kernel
  obtain ⟨text, apart⟩ := @radix_exact 36 (by decide) (by decide) _ _ here
  refine ⟨by decide, by decide, here, beside, text, ?_⟩
  intro same
  exact absurd (apart _ _ beside same) (by decide)

end Toolbar.Method
