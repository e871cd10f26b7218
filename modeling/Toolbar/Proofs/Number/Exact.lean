/-
# `Toolbar.Proofs.Number.Exact` — integers with at most 53 binary digits are doubles

Rounding changes nothing that needs no rounding: an integer below `2 ^ 53` has one double
(`whole`), and every quotient and every product that comes to such an integer is this double.  So
arithmetic on doubles that stays below the bound is arithmetic on integers.
-/
import Mathlib.Tactic.Ring
import Toolbar.Proofs.Number.Rounding

namespace Toolbar

namespace Binary64

/-- A quotient has its leading binary digit. -/
theorem leadingExponent_le {num den : Nat} (hnum : 0 < num) (hden : 0 < den) :
    (2 : ℚ) ^ leadingExponent num den ≤ num / den := by
  have units := unitsOf_div num den (num.log2 - den.log2)
  have hd := unitsOf_pos num (num.log2 - den.log2) hden
  unfold leadingExponent
  dsimp only
  split
  next =>
    have hnum' : (2 : ℚ) ^ num.log2 ≤ num := by exact_mod_cast Nat.log2_self_le hnum.ne'
    have hden' : (den : ℚ) ≤ 2 ^ (den.log2 + 1) := by exact_mod_cast Nat.lt_log2_self.le
    have hsplit : (2 : ℚ) ^ ((num.log2 : Int) - den.log2 - 1) =
        2 ^ num.log2 / 2 ^ (den.log2 + 1) := by
      rw [sub_sub, zpow_sub₀ two_ne_zero]
      exact_mod_cast rfl
    rw [hsplit]
    exact div_le_div₀ (by positivity) hnum' (by exact_mod_cast hden) hden'
  next hle =>
    have hone : 1 ≤ ((unitsOf num den (num.log2 - den.log2)).1 : ℚ) /
        (unitsOf num den (num.log2 - den.log2)).2 := by
      rw [one_le_div (by exact_mod_cast hd)]
      exact_mod_cast not_lt.mp hle
    rwa [units, zpow_neg, ← div_eq_mul_inv, one_le_div (by positivity)] at hone

/-- The leading binary digit of a quotient that is an integer. -/
theorem leadingExponent_mul {k den : Nat} (hk : 0 < k) (hden : 0 < den) :
    leadingExponent (k * den) den = k.log2 := by
  have value : ((k * den : Nat) : ℚ) / den = k := by
    rw [Nat.cast_mul, mul_div_cancel_right₀ _ (by exact_mod_cast hden.ne')]
  have low := leadingExponent_le (Nat.mul_pos hk hden) hden
  have high := @lt_leadingExponent (k * den) den hden
  rw [value] at low high
  generalize leadingExponent (k * den) den = e at *
  have hlow : e < k.log2 + 1 := by
    have : (2 : ℚ) ^ e < 2 ^ ((k.log2 : Int) + 1) :=
      low.trans_lt (by exact_mod_cast Nat.lt_log2_self)
    exact (zpow_lt_zpow_iff_right₀ one_lt_two).mp this
  have hhigh : (k.log2 : Int) < e + 1 := by
    have : (2 : ℚ) ^ (k.log2 : Int) < 2 ^ (e + 1) :=
      lt_of_le_of_lt (by exact_mod_cast Nat.log2_self_le hk.ne') high
    exact (zpow_lt_zpow_iff_right₀ one_lt_two).mp this
  omega

theorem roundDiv_mul (k : Nat) {den : Nat} (hden : 0 < den) : roundDiv (k * den) den = k := by
  simp [roundDiv, Nat.mul_div_cancel _ hden, hden.ne]

/-- The double of an integer with at most 53 binary digits. -/
def whole (negative : Bool) (k : Nat) : Binary64 :=
  if k = 0 then zero negative else .finite negative (k * 2 ^ (52 - k.log2)) (k.log2 - 52)

theorem exists_finite (s : Bool) (k : Nat) : ∃ m e, whole s k = .finite s m e := by
  unfold whole
  split
  · exact ⟨0, leastExponent, rfl⟩
  · exact ⟨_, _, rfl⟩

theorem log2_le_of_lt {k : Nat} (small : k < 2 ^ 53) : k.log2 ≤ 52 := by
  by_cases zero : k = 0
  · subst zero
    decide
  · exact Nat.le_of_lt_succ ((Nat.log2_lt zero).mpr small)

/-- A quotient that is an integer is not rounded. -/
theorem ofRatio_mul (s : Bool) {k den : Nat} (small : k < 2 ^ 53) (hden : 0 < den) :
    ofRatio s (k * den) den = whole s k := by
  have hlog := log2_le_of_lt small
  unfold ofRatio whole
  by_cases zero : k = 0
  · rw [if_pos (by simp [zero]), if_pos zero]
  · have hk : 0 < k := Nat.pos_of_ne_zero zero
    rw [if_neg (Nat.mul_pos hk hden).ne', if_neg zero, leadingExponent_mul hk hden]
    have exponent : max ((k.log2 : Int) - 52) leastExponent = k.log2 - 52 := by
      unfold leastExponent
      omega
    have units : unitsOf (k * den) den (k.log2 - 52) = (k * 2 ^ (52 - k.log2) * den, den) := by
      unfold unitsOf
      split
      next =>
        obtain full : k.log2 = 52 := by omega
        simp [full]
      next =>
        have count : (-((k.log2 : Int) - 52)).toNat = 52 - k.log2 := by omega
        rw [count, Nat.pow_eq, Nat.mul_right_comm]
    have significand : k * 2 ^ (52 - k.log2) < 2 ^ 53 := calc
      k * 2 ^ (52 - k.log2)
        < 2 ^ (k.log2 + 1) * 2 ^ (52 - k.log2) :=
          Nat.mul_lt_mul_of_pos_right Nat.lt_log2_self (Nat.two_pow_pos _)
      _ = 2 ^ 53 := by rw [← Nat.pow_add]; congr 1; omega
    dsimp only
    rw [exponent, units]
    dsimp only
    rw [roundDiv_mul _ hden, Nat.pow_eq, if_neg significand.ne,
      if_neg (by unfold greatestExponent; omega)]

/-- The double of an integer whose absolute value has at most 53 binary digits. -/
def ofWhole (i : Int) : Binary64 :=
  whole (i < 0) i.natAbs

theorem ofInt?_eq_ofWhole {i : Int} (small : i.natAbs < 2 ^ 53) : ofInt? i = some (ofWhole i) := by
  have nearest := ofRatio_mul (i < 0) small Nat.one_pos
  rw [Nat.mul_one] at nearest
  obtain ⟨m, e, finite⟩ := exists_finite (i < 0) i.natAbs
  rw [ofInt?, nearest, ofWhole, finite]

theorem ofScaled_zero (s : Bool) (e : Int) : ofScaled s 0 e = zero s := by
  unfold ofScaled
  split <;> simp [ofRatio]

theorem ofScaled_of_nonpos (s : Bool) (m : Nat) {e : Int} (he : e ≤ 0) :
    ofScaled s m e = ofRatio s m (2 ^ (-e).toNat) := by
  unfold ofScaled
  split
  next nonneg =>
    obtain rfl : e = 0 := le_antisymm he nonneg
    simp
  next => rfl

theorem magnitude_of_nonpos (m : Nat) {e : Int} (he : e ≤ 0) :
    magnitude m e = (m, 2 ^ (-e).toNat) := by
  unfold magnitude
  split
  next nonneg =>
    obtain rfl : e = 0 := le_antisymm he nonneg
    simp
  next => rfl

theorem whole_zero (s : Bool) : whole s 0 = zero s := rfl

/-- A product that stays below the bound is not rounded. -/
theorem whole_mul (s t : Bool) {j k : Nat} (hj : j < 2 ^ 53) (hk : k < 2 ^ 53)
    (small : j * k < 2 ^ 53) : (whole s j).mul (whole t k) = whole (s != t) (j * k) := by
  have hlogj := log2_le_of_lt hj
  have hlogk := log2_le_of_lt hk
  by_cases zeroj : j = 0
  · subst zeroj
    obtain ⟨m, e, finite⟩ := exists_finite t k
    rw [Nat.zero_mul, whole_zero, whole_zero, finite, zero, mul, Nat.zero_mul]
    exact ofScaled_zero _ _
  by_cases zerok : k = 0
  · subst zerok
    rw [Nat.mul_zero, whole_zero, whole_zero, whole, if_neg zeroj]
    exact ofScaled_zero _ _
  have significands : j * 2 ^ (52 - j.log2) * (k * 2 ^ (52 - k.log2)) =
      j * k * 2 ^ (52 - j.log2 + (52 - k.log2)) := by
    rw [Nat.pow_add]
    ring
  have exponents : (-((j.log2 : Int) - 52 + (k.log2 - 52))).toNat =
      52 - j.log2 + (52 - k.log2) := by omega
  rw [whole, if_neg zeroj, whole, if_neg zerok]
  change ofScaled _ _ _ = _
  rw [significands, ofScaled_of_nonpos _ _ (by omega), exponents]
  exact ofRatio_mul _ small (Nat.two_pow_pos _)

/-- The integer part of the double of an integer is this integer. -/
theorem truncate?_whole (s : Bool) {k : Nat} (small : k < 2 ^ 53) :
    (whole s k).truncate? = some (if s then -(k : Int) else k) := by
  have hlog := log2_le_of_lt small
  by_cases zero : k = 0
  · subst zero
    rw [whole_zero, zero, truncate?, magnitude_of_nonpos _ (by decide)]
    dsimp only
    rw [Nat.zero_div]
  · have exponent : (-((k.log2 : Int) - 52)).toNat = 52 - k.log2 := by omega
    rw [whole, if_neg zero, truncate?, magnitude_of_nonpos _ (by omega), exponent]
    dsimp only
    rw [Nat.mul_div_cancel _ (Nat.two_pow_pos _)]

theorem truncate?_ofWhole {i : Int} (small : i.natAbs < 2 ^ 53) :
    (ofWhole i).truncate? = some i := by
  rw [ofWhole, truncate?_whole _ small]
  congr 1
  split
  next negative => simp only [decide_eq_true_eq] at negative; omega
  next positive => simp only [decide_eq_true_eq] at positive; omega

end Binary64

namespace Number

open Binary64

/-- A product with a count has the sign of its first factor. -/
theorem sign_mul (i : Int) {k : Nat} (hk : 0 < k) :
    (decide (i * k < 0) != decide ((k : Int) < 0)) = decide (i < 0) ∧
      (decide (i < 0) != decide ((k : Int) < 0)) = decide (i * k < 0) := by
  have nonneg : ¬ (k : Int) < 0 := by omega
  have same : i * k < 0 ↔ i < 0 := by
    rw [← not_le, ← not_le, mul_nonneg_iff_of_pos_right (by exact_mod_cast hk)]
  simp [nonneg, same]

/-- The quotient of a multiple. -/
theorem div_mul (i : Int) {den : Nat} (small : i.natAbs < 2 ^ 53) (hden : 0 < den) :
    div (.int (i * den)) (.int den) = .ok (.real (ofWhole i)) := by
  have ratio : ofRatio (decide (i * den < 0) != decide ((den : Int) < 0)) (i * den).natAbs
      (den : Int).natAbs = ofWhole i := by
    rw [(sign_mul i hden).1, Int.natAbs_mul, Int.natAbs_natCast, ofRatio_mul _ small hden, ofWhole]
  obtain ⟨m, e, finite⟩ := exists_finite (i < 0) i.natAbs
  simp only [div, ratio]
  rw [ofWhole, finite]

/-- The product with a count. -/
theorem mul_int {i : Int} {k : Nat} (hi : i.natAbs < 2 ^ 53) (hk : 0 < k) (hk' : k < 2 ^ 53)
    (small : (i * k).natAbs < 2 ^ 53) :
    mul (.real (ofWhole i)) (.int k) = .ok (.real (ofWhole (i * k))) := by
  have product : (ofWhole i).mul (ofWhole k) = ofWhole (i * k) := by
    rw [Int.natAbs_mul] at small
    rw [ofWhole, ofWhole, whole_mul _ _ hi (by simpa using hk') small,
      (sign_mul i hk).2, ← Int.natAbs_mul]
    rfl
  have count : toReal (.int k) = .ok (ofWhole k) := by
    rw [toReal, ofInt?_eq_ofWhole (by simpa using hk')]
  change (toReal (.int k) >>= fun y => .ok (Number.real ((ofWhole i).mul y))) = _
  rw [count, ← product]
  rfl

theorem truncate_ofWhole {i : Int} (small : i.natAbs < 2 ^ 53) :
    truncate (.real (ofWhole i)) = .ok i := by
  rw [truncate, truncate?_ofWhole small]

end Number

end Toolbar
