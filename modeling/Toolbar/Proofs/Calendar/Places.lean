/-
# `Toolbar.Proofs.Calendar.Places` — numbers at a fixed count of places

The parts of a date and of a time are written with as many digits as their greatest values have.
Such a text is what the reader takes for a number of that many digits, and nothing else is
(`number?_eq_some_iff`); and because the texts are of one length, they come in the order of the
numbers, whatever follows (`field_lt_iff`).

    places    the last digits of a number, as many as are asked for
-/
import Mathlib.Tactic.Linarith
import Mathlib.Tactic.Ring
import Mathlib.Tactic.Tauto
import Mathlib.Tactic.Positivity
import Toolbar.Calendar.Iso
import Toolbar.Proofs.Calendar.Days

namespace Toolbar

namespace Calendar

open Text Iso

/-- The last `width` digits of a number. -/
def places : (width n : Nat) → List Char
  | 0, _ => []
  | width + 1, n => (n / 10 ^ width % 10).digitChar :: places width n

@[simp] theorem length_places (width n : Nat) : (places width n).length = width := by
  induction width with
  | zero => rfl
  | succ width ih => rw [places, List.length_cons, ih]

/-- The last digits are those of the tenth part and one more. -/
theorem places_succ (width n : Nat) :
    places (width + 1) n = places width (n / 10) ++ [(n % 10).digitChar] := by
  induction width with
  | zero => simp [places]
  | succ width ih =>
      have tenth : n / 10 ^ (width + 1) % 10 = n / 10 / 10 ^ width % 10 := by
        rw [Nat.div_div_eq_div_mul, Nat.pow_succ']
      rw [places, ih, places, tenth]
      rfl

theorem places_zero (width : Nat) : places width 0 = List.replicate width '0' := by
  induction width with
  | zero => rfl
  | succ width ih => rw [places, ih, List.replicate_succ, Nat.zero_div]; rfl

/-- Digits that stand further left than all places do not show. -/
theorem places_add_mul (width d n : Nat) : places width (d * 10 ^ width + n) = places width n := by
  induction width generalizing d with
  | zero => rfl
  | succ width ih =>
      have further : d * 10 ^ (width + 1) = (d * 10) * 10 ^ width := by
        rw [Nat.pow_succ', Nat.mul_assoc]
      rw [further, places, ih, places, Nat.add_comm, Nat.add_mul_div_right _ _ (by positivity),
        Nat.add_mul_mod_self_right]

/-- A number is written with zeros in front up to the width. -/
theorem padded_eq_places {width n : Nat} (positive : 0 < width) (small : n < 10 ^ width) :
    Stamp.padded width n = places width n := by
  obtain ⟨width, rfl⟩ : ∃ w, width = w + 1 := ⟨width - 1, by omega⟩
  induction width generalizing n with
  | zero =>
      have digit : n < 10 := small
      simp [Stamp.padded, decimalDigits, Nat.toDigits_of_lt_base digit, places,
        Nat.mod_eq_of_lt digit]
  | succ width ih =>
      rw [places_succ]
      by_cases digit : n < 10
      · rw [Nat.div_eq_of_lt digit, Nat.mod_eq_of_lt digit, places_zero, Stamp.padded,
          decimalDigits, Nat.toDigits_of_lt_base digit]
        rfl
      · have front : Stamp.padded (width + 1) (n / 10) = places (width + 1) (n / 10) :=
          ih (Nat.succ_pos width) (Nat.div_lt_of_lt_mul (by rwa [← Nat.pow_succ']))
        have last : decimalDigits n = decimalDigits (n / 10) ++ [(n % 10).digitChar] :=
          Nat.toDigits_of_base_le (by decide) (by omega)
        rw [← front, Stamp.padded, last, Stamp.padded, List.length_append, List.length_singleton,
          Nat.add_sub_add_right, List.append_assoc]

/-! ## Reading -/

theorem digit_read : ∀ d < 10, isAsciiDigit d.digitChar = true ∧ d.digitChar.toNat - 0x30 = d := by
  decide

theorem digitChar_of_isAsciiDigit {c : Char} (h : isAsciiDigit c = true) :
    c.toNat - 0x30 < 10 ∧ (c.toNat - 0x30).digitChar = c := by
  have written : ∀ d < 10, d.digitChar = Char.ofNat (0x30 + d) := by decide
  obtain ⟨low, high⟩ : 0x30 ≤ c.toNat ∧ c.toNat ≤ 0x39 := by
    simpa [isAsciiDigit, Char.le_def, UInt32.le_iff_toNat_le] using h
  have digit : c.toNat - 0x30 < 10 := by omega
  refine ⟨digit, ?_⟩
  rw [written _ digit, Nat.add_sub_cancel' low, Char.ofNat_toNat]

/-- As many digits as are asked for are read. -/
theorem number?_places (width value n : Nat) (rest : List Char) :
    number? width value (places width n ++ rest) =
      some (value * 10 ^ width + n % 10 ^ width, rest) := by
  induction width generalizing value with
  | zero => simp [number?, places, Nat.mod_one]
  | succ width ih =>
      obtain ⟨digit, read⟩ := digit_read (n / 10 ^ width % 10) (Nat.mod_lt _ (by decide))
      rw [places, List.cons_append, number?, if_pos digit, read, ih]
      congr 2
      rw [Nat.pow_succ, Nat.mod_mul, Nat.add_mul]
      ring

/-- What is read as a number of so many digits is written with so many digits. -/
theorem eq_places_of_number? {width value m : Nat} {cs rest : List Char}
    (h : number? width value cs = some (m, rest)) :
    ∃ n < 10 ^ width, m = value * 10 ^ width + n ∧ cs = places width n ++ rest := by
  induction width generalizing value cs with
  | zero =>
      cases h
      exact ⟨0, by decide, by simp, rfl⟩
  | succ width ih =>
      cases cs with
      | nil => cases h
      | cons c cs =>
          rw [number?, Option.ite_none_right_eq_some] at h
          obtain ⟨digit, h⟩ := h
          obtain ⟨n, hn, rfl, rfl⟩ := ih h
          obtain ⟨hd, written⟩ := digitChar_of_isAsciiDigit digit
          generalize c.toNat - 0x30 = d at hd written
          refine ⟨d * 10 ^ width + n, ?_, ?_, ?_⟩
          · rw [Nat.pow_succ]
            nlinarith
          · rw [Nat.pow_succ]
            ring
          · rw [places, places_add_mul, Nat.add_comm, Nat.add_mul_div_right _ _ (by positivity),
              Nat.div_eq_of_lt hn, Nat.zero_add, Nat.mod_eq_of_lt hd, written]
            rfl

theorem number?_eq_some_iff {width n : Nat} {cs rest : List Char} :
    number? width 0 cs = some (n, rest) ↔ n < 10 ^ width ∧ cs = places width n ++ rest := by
  constructor
  · intro h
    obtain ⟨n', hn, rfl, rfl⟩ := eq_places_of_number? h
    rw [Nat.zero_mul, Nat.zero_add]
    exact ⟨hn, rfl⟩
  · rintro ⟨hn, rfl⟩
    rw [number?_places, Nat.zero_mul, Nat.zero_add, Nat.mod_eq_of_lt hn]

/-! ## Order -/

/-- Texts that begin with texts of one length are ordered by these first. -/
theorem append_lt_append_iff {as bs cs ds : List Char} (h : as.length = bs.length) :
    as ++ cs < bs ++ ds ↔ as < bs ∨ as = bs ∧ cs < ds := by
  induction as generalizing bs with
  | nil =>
      obtain rfl := List.length_eq_zero_iff.mp h.symm
      simp
  | cons a as ih =>
      cases bs with
      | nil => cases h
      | cons b bs =>
          rw [List.cons_append, List.cons_append, List.cons_lt_cons_iff, List.cons_lt_cons_iff,
            ih (Nat.succ.inj h), List.cons.injEq]
          tauto

theorem digitChar_lt_iff : ∀ d < 10, ∀ e < 10, d.digitChar < e.digitChar ↔ d < e := by
  decide

theorem digitChar_inj : ∀ d < 10, ∀ e < 10, d.digitChar = e.digitChar ↔ d = e := by
  decide

/-- A number with more places than asked for shows its remainder. -/
theorem places_mod (width n : Nat) : places width (n % 10 ^ width) = places width n := by
  have split := places_add_mul width (n / 10 ^ width) (n % 10 ^ width)
  rwa [Nat.mul_comm, Nat.div_add_mod, eq_comm] at split

/-- Numbers are ordered by their quotients first and then by their remainders. -/
theorem lt_iff_div_mod {b : Nat} (m n : Nat) :
    m < n ↔ m / b < n / b ∨ m / b = n / b ∧ m % b < n % b := by
  have hm := Nat.div_add_mod m b
  have hn := Nat.div_add_mod n b
  constructor
  · intro h
    rcases Nat.lt_or_eq_of_le (Nat.div_le_div_right (Nat.le_of_lt h)) with less | same
    · exact .inl less
    · refine .inr ⟨same, ?_⟩
      rw [same] at hm
      omega
  · rintro (less | ⟨same, less⟩)
    · exact Nat.lt_of_div_lt_div less
    · rw [same] at hm
      omega

/-- At one count of places texts are ordered as the numbers are. -/
theorem places_lt_iff {width m n : Nat} (hm : m < 10 ^ width) (hn : n < 10 ^ width) :
    places width m < places width n ↔ m < n := by
  induction width generalizing m n with
  | zero =>
      obtain rfl : m = 0 := by simpa using hm
      obtain rfl : n = 0 := by simpa using hn
      simp
  | succ width ih =>
      have positive : 0 < 10 ^ width := by positivity
      have leading {k : Nat} (hk : k < 10 ^ (width + 1)) : k / 10 ^ width < 10 :=
        Nat.div_lt_of_lt_mul (by rwa [← Nat.pow_succ])
      rw [places, places, Nat.mod_eq_of_lt (leading hm), Nat.mod_eq_of_lt (leading hn),
        List.cons_lt_cons_iff, digitChar_lt_iff _ (leading hm) _ (leading hn),
        digitChar_inj _ (leading hm) _ (leading hn), ← places_mod width m, ← places_mod width n,
        ih (Nat.mod_lt _ positive) (Nat.mod_lt _ positive), ← lt_iff_div_mod]

theorem places_inj {width m n : Nat} (hm : m < 10 ^ width) (hn : n < 10 ^ width) :
    places width m = places width n ↔ m = n := by
  constructor
  · intro h
    have notLess : ¬ m < n := fun less =>
      absurd ((places_lt_iff hm hn).mpr less) (h ▸ List.lt_irrefl _)
    have notMore : ¬ n < m := fun more =>
      absurd ((places_lt_iff hn hm).mpr more) (h ▸ List.lt_irrefl _)
    omega
  · rintro rfl
    rfl

/-- Two fields are ordered by their numbers and then by what follows. -/
theorem field_lt_iff {width m n : Nat} (hm : m < 10 ^ width) (hn : n < 10 ^ width)
    {cs ds : List Char} :
    places width m ++ cs < places width n ++ ds ↔ m < n ∨ m = n ∧ cs < ds := by
  rw [append_lt_append_iff (by rw [length_places, length_places]), places_lt_iff hm hn,
    places_inj hm hn]

theorem mark_lt_iff (mark : Char) {cs ds : List Char} : mark :: cs < mark :: ds ↔ cs < ds := by
  simp

/-! ## Dates and times -/

end Calendar

namespace Date

open Calendar

theorem isoText_eq (d : Date) :
    d.isoText = places 4 d.year ++ '-' :: (places 2 d.month ++ '-' :: places 2 d.day) := by
  rw [isoText, padded_eq_places (by decide) d.year_lt, padded_eq_places (by decide) d.month_lt,
    padded_eq_places (by decide) d.day_lt, List.append_assoc, List.cons_append]

end Date

namespace Stamp

open Calendar

theorem hour_lt (t : Stamp) : t.hour < 10 ^ 2 := t.isTime.1.trans (by decide)

theorem minute_lt (t : Stamp) : t.minute < 10 ^ 2 := t.isTime.2.1.trans (by decide)

theorem second_lt (t : Stamp) : t.second < 10 ^ 2 := t.isTime.2.2.1.trans (by decide)

theorem clockText_eq (t : Stamp) : t.clockText =
    places 2 t.hour ++ ':' :: (places 2 t.minute ++ ':' :: places 2 t.second) := by
  rw [clockText, padded_eq_places (by decide) t.hour_lt, padded_eq_places (by decide) t.minute_lt,
    padded_eq_places (by decide) t.second_lt, List.append_assoc, List.cons_append]

end Stamp

end Toolbar
