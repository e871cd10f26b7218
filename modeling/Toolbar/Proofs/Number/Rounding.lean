/-
# `Toolbar.Proofs.Number.Rounding` — how large a double can be

Every operation on doubles rounds an exact quotient once.  The result is in the one form of finite
doubles: its significand has at most 53 binary digits, and its exponent is not beyond the greatest.
So the integer part of a double that came out of an operation has at most 1024 binary digits, and
far fewer decimal digits than a text may have.

    Fits        the double is in this form
    fits_…      what an operation gives is in this form
-/
import Mathlib.Tactic.Positivity
import Mathlib.Algebra.Order.Field.Power
import Toolbar.Number.Basic

namespace Toolbar

namespace Binary64

/-- A quotient in units of a power of two. -/
theorem unitsOf_div (num den : Nat) (e : Int) :
    ((unitsOf num den e).1 : ℚ) / (unitsOf num den e).2 = num / den * 2 ^ (-e) := by
  unfold unitsOf
  split
  next he =>
    obtain ⟨k, rfl⟩ := Int.eq_ofNat_of_zero_le he
    simp only [Int.toNat_natCast, Nat.pow_eq, Nat.cast_mul, Nat.cast_pow, Nat.cast_ofNat, zpow_neg,
      zpow_natCast]
    rw [div_mul_eq_div_div, div_eq_mul_inv]
  next he =>
    obtain ⟨k, hk⟩ := Int.eq_ofNat_of_zero_le (show 0 ≤ -e by omega)
    simp only [hk, Int.toNat_natCast, Nat.pow_eq, Nat.cast_mul, Nat.cast_pow, Nat.cast_ofNat,
      zpow_natCast]
    rw [div_mul_eq_mul_div]

theorem unitsOf_pos {den : Nat} (num : Nat) (e : Int) (hden : 0 < den) :
    0 < (unitsOf num den e).2 := by
  unfold unitsOf
  split
  · exact Nat.mul_pos hden (Nat.pow_pos (by decide))
  · exact hden

/-- No binary digit of a quotient stands before the leading one. -/
theorem lt_leadingExponent {num den : Nat} (hden : 0 < den) :
    (num : ℚ) / den < 2 ^ (leadingExponent num den + 1) := by
  have units := unitsOf_div num den (num.log2 - den.log2)
  have hd := unitsOf_pos num (num.log2 - den.log2) hden
  unfold leadingExponent
  dsimp only
  split
  next hlt =>
    have hone : ((unitsOf num den (num.log2 - den.log2)).1 : ℚ) /
        (unitsOf num den (num.log2 - den.log2)).2 < 1 := by
      rw [div_lt_one (by exact_mod_cast hd)]
      exact_mod_cast hlt
    rw [units, zpow_neg, ← div_eq_mul_inv, div_lt_one (by positivity)] at hone
    simpa using hone
  next =>
    have hnum : (num : ℚ) < 2 ^ (num.log2 + 1) := by exact_mod_cast Nat.lt_log2_self
    have hden' : (2 : ℚ) ^ den.log2 ≤ den := by exact_mod_cast Nat.log2_self_le hden.ne'
    have hsplit : (2 : ℚ) ^ ((num.log2 : Int) - den.log2 + 1) =
        2 ^ (num.log2 + 1) / 2 ^ den.log2 := by
      rw [sub_add_eq_add_sub, zpow_sub₀ two_ne_zero]
      exact_mod_cast rfl
    rw [hsplit]
    exact div_lt_div₀ hnum hden' (by positivity) (by positivity)

theorem roundDiv_le {num den bound : Nat} (h : num < den * bound) : roundDiv num den ≤ bound := by
  have hq : num / den < bound := Nat.div_lt_of_lt_mul h
  unfold roundDiv
  dsimp only
  split <;> omega

/-- A finite double in its one form: its significand has at most 53 binary digits, and its exponent
is not beyond the greatest. -/
def Fits : Binary64 → Prop
  | .finite _ m e => m < 2 ^ 53 ∧ e ≤ greatestExponent
  | _ => True

theorem fits_ofRatio (s : Bool) {num den : Nat} (hden : 0 < den) : (ofRatio s num den).Fits := by
  unfold ofRatio
  split
  · exact ⟨by decide, by decide⟩
  · dsimp only
    generalize he : max (leadingExponent num den - 52) leastExponent = e
    have hm : roundDiv (unitsOf num den e).1 (unitsOf num den e).2 ≤ 2 ^ 53 := by
      refine roundDiv_le ?_
      have hd := unitsOf_pos num e hden
      have hle : leadingExponent num den + 1 - e ≤ 53 := by omega
      have hlt : ((unitsOf num den e).1 : ℚ) / (unitsOf num den e).2 < 2 ^ 53 := calc
        ((unitsOf num den e).1 : ℚ) / (unitsOf num den e).2
          = num / den * 2 ^ (-e) := unitsOf_div num den e
        _ < 2 ^ (leadingExponent num den + 1) * 2 ^ (-e) :=
          mul_lt_mul_of_pos_right (lt_leadingExponent hden) (by positivity)
        _ = 2 ^ (leadingExponent num den + 1 - e) := by
          rw [← zpow_add₀ two_ne_zero, ← sub_eq_add_neg]
        _ ≤ 2 ^ (53 : Int) := zpow_le_zpow_right₀ one_le_two hle
        _ = 2 ^ 53 := by norm_cast
      rw [div_lt_iff₀ (by exact_mod_cast hd)] at hlt
      rw [Nat.mul_comm]
      exact_mod_cast hlt
    split
    next heq =>
      split
      · trivial
      next hgreat => exact ⟨by decide, by omega⟩
    next hne =>
      split
      · trivial
      next hgreat =>
        have hne : roundDiv (unitsOf num den e).1 (unitsOf num den e).2 ≠ 2 ^ 53 := hne
        exact ⟨Nat.lt_of_le_of_ne hm hne, by omega⟩

theorem fits_ofScaled (s : Bool) (m : Nat) (e : Int) : (ofScaled s m e).Fits := by
  unfold ofScaled
  split
  · exact fits_ofRatio s Nat.one_pos
  · exact fits_ofRatio s (Nat.pow_pos Nat.two_pos)

theorem fits_mul (x y : Binary64) : (x.mul y).Fits := by
  unfold mul
  split
  case h_6 => exact fits_ofScaled _ _ _
  case h_4 | h_5 => split <;> trivial
  all_goals trivial

/-- The integer part of a double has at most 1024 binary digits. -/
theorem Fits.truncate_lt {x : Binary64} (h : x.Fits) {i : Int} (hi : x.truncate? = some i) :
    i.natAbs < 2 ^ 1024 := by
  cases x with
  | infinite | nan => cases hi
  | finite s m e =>
      obtain ⟨hm, he⟩ := h
      have hq : (magnitude m e).1 / (magnitude m e).2 < 2 ^ 1024 := by
        unfold magnitude
        split
        next =>
          have he : e.toNat ≤ 971 := by
            unfold greatestExponent at he
            omega
          rw [Nat.div_one, Nat.pow_eq]
          calc m * 2 ^ e.toNat
              < 2 ^ 53 * 2 ^ e.toNat := Nat.mul_lt_mul_of_pos_right hm (Nat.two_pow_pos _)
            _ = 2 ^ (53 + e.toNat) := (pow_add 2 53 _).symm
            _ ≤ 2 ^ 1024 := pow_le_pow_right₀ one_le_two (by omega)
        next =>
          calc m / Nat.pow 2 (-e).toNat
              ≤ m := Nat.div_le_self ..
            _ < 2 ^ 53 := hm
            _ ≤ 2 ^ 1024 := pow_le_pow_right₀ one_le_two (by decide)
      cases hi
      dsimp only
      split
      · exact lt_of_eq_of_lt (Int.natAbs_neg _) hq
      · exact hq

end Binary64

namespace Number

/-- The quotient of two integers is a double. -/
theorem div_int {i j : Int} {n : Number} (h : div (.int i) (.int j) = .ok n) : ∃ x, n = .real x := by
  dsimp only [div] at h
  split at h
  · cases h
  · cases h
    exact ⟨_, rfl⟩

theorem truncate_real {x : Binary64} {i : Int} (h : truncate (.real x) = .ok i) :
    x.truncate? = some i := by
  dsimp only [truncate] at h
  split at h
  next hx =>
    cases h
    exact hx
  next => cases h

/-- The integer part of a product with a double has at most 1024 binary digits. -/
theorem truncate_mul_lt {x : Binary64} {n : Number} {i : Int}
    (h : (mul (.real x) n).bind truncate = .ok i) : i.natAbs < 2 ^ 1024 := by
  have hmul : mul (.real x) n = n.toReal.bind fun y => .ok (.real (x.mul y)) := rfl
  rw [hmul] at h
  cases hy : n.toReal with
  | error f =>
      rw [hy] at h
      cases h
  | ok y =>
      rw [hy] at h
      exact (Binary64.fits_mul x y).truncate_lt (truncate_real h)

end Number

end Toolbar
