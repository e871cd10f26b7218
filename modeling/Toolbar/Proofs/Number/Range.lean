/-
# `Toolbar.Proofs.Number.Range` — which integers have a double near them

An integer is rounded to a double, and the double is an integer again: below `2 ^ 53` it is the same
one, and from there on the last place of a double stands for two or more.  There is no such double
from halfway between the greatest one and `2 ^ 1024` on; the number halfway itself goes to the even
neighbour, which is `2 ^ 1024`.

    overflow    the least natural number without a double
-/
import Toolbar.Proofs.Number.Exact

namespace Toolbar

namespace Binary64

/-- The least natural number that is too great for a double. -/
def overflow : Nat := (2 ^ 54 - 1) * 2 ^ 970

theorem overflow_le : overflow ≤ 2 ^ 1024 := by
  obtain ⟨n, hn⟩ : ∃ n, 970 = n := ⟨970, rfl⟩
  have power : 1024 = 54 + n := by omega
  rw [overflow, hn, power, Nat.pow_add]
  exact Nat.mul_le_mul_right (2 ^ n) (Nat.sub_le (2 ^ 54) 1)

theorem isInteger_of_nonneg (s : Bool) (m : Nat) {e : Int} (he : 0 ≤ e) :
    (Binary64.finite s m e).isInteger = true := by
  rw [isInteger, magnitude, if_pos he]
  simp [Nat.mod_one]

/-- A small integer is its own double. -/
theorem ofRatio_one (s : Bool) {k : Nat} (small : k < 2 ^ 53) : ofRatio s k 1 = whole s k := by
  rw [← ofRatio_mul s small Nat.one_pos, Nat.mul_one]

theorem isInteger_whole (s : Bool) {k : Nat} (small : k < 2 ^ 53) :
    (whole s k).isInteger = true := by
  have hlog := log2_le_of_lt small
  by_cases zero : k = 0
  · subst zero
    rw [whole_zero, Binary64.zero, isInteger, magnitude_of_nonpos _ (by decide)]
    simp
  · have exponent : (-((k.log2 : Int) - 52)).toNat = 52 - k.log2 := by omega
    rw [whole, if_neg zero, isInteger, magnitude_of_nonpos _ (by omega), exponent]
    simp

/-- The last place of a great integer, as a double. -/
def lastPlace (k : Nat) : Nat := k.log2 - 52

theorem le_log2 {k : Nat} (large : 2 ^ 53 ≤ k) : 53 ≤ k.log2 :=
  (Nat.le_log2 (by omega)).mpr large

/-- A great integer is rounded to a multiple of its last place. -/
theorem ofRatio_of_large (s : Bool) {k : Nat} (large : 2 ^ 53 ≤ k) :
    ofRatio s k 1 =
      if roundDiv k (2 ^ lastPlace k) = 2 ^ 53 then
        if 970 < lastPlace k then .infinite s else .finite s (2 ^ 52) (lastPlace k + 1)
      else if 971 < lastPlace k then .infinite s
      else .finite s (roundDiv k (2 ^ lastPlace k)) (lastPlace k) := by
  have hlog := le_log2 large
  have leading : leadingExponent k 1 = k.log2 := by
    simpa using @leadingExponent_mul k 1 (by omega) Nat.one_pos
  have exponent : max (leadingExponent k 1 - 52) leastExponent = (lastPlace k : Int) := by
    rw [leading]
    unfold leastExponent lastPlace
    omega
  have units : unitsOf k 1 (lastPlace k : Int) = (k, 2 ^ lastPlace k) := by
    rw [unitsOf, if_pos (Int.natCast_nonneg _), Int.toNat_natCast, Nat.pow_eq, Nat.one_mul]
  have carried : greatestExponent < (lastPlace k : Int) + 1 ↔ 970 < lastPlace k := by
    unfold greatestExponent
    omega
  have beyond : greatestExponent < (lastPlace k : Int) ↔ 971 < lastPlace k := by
    unfold greatestExponent
    omega
  unfold ofRatio
  rw [if_neg (by omega)]
  dsimp only
  rw [exponent, units]
  simp only [Nat.pow_eq, gt_iff_lt, carried, beyond]

/-- What is near an integer is an integer, when it is finite. -/
theorem isInteger_of_ofRatio {s : Bool} {k m : Nat} {e : Int}
    (h : ofRatio s k 1 = .finite s m e) : (Binary64.finite s m e).isInteger = true := by
  rcases Nat.lt_or_ge k (2 ^ 53) with small | large
  · rw [← h, ofRatio_one s small]
    exact isInteger_whole s small
  · rw [ofRatio_of_large s large] at h
    split at h
    · split at h
      · cases h
      · cases h
        exact isInteger_of_nonneg s _ (by omega)
    · split at h
      · cases h
      · cases h
        exact isInteger_of_nonneg s _ (by omega)

/-- A number is rounded up to an even bound from halfway on. -/
theorem roundDiv_eq_iff {k half bound : Nat} (positive : 0 < bound) (even : bound % 2 = 0)
    (below : k < 2 * half * bound) :
    roundDiv k (2 * half) = bound ↔ 2 * half * bound ≤ k + half := by
  obtain ⟨b, rfl⟩ : ∃ b, bound = b + 1 := ⟨bound - 1, by omega⟩
  have hhalf : 0 < half := by
    rcases Nat.eq_zero_or_pos half with rfl | h
    · omega
    · exact h
  have parts := Nat.div_add_mod k (2 * half)
  have hrest := Nat.mod_lt k (show 0 < 2 * half by omega)
  have hquotient : k / (2 * half) ≤ b := Nat.le_of_lt_succ (Nat.div_lt_of_lt_mul below)
  have step : 2 * half * (b + 1) = 2 * half * b + 2 * half := Nat.mul_succ ..
  unfold roundDiv
  dsimp only
  rcases Nat.eq_or_lt_of_le hquotient with last | earlier
  · rw [last] at parts
    rw [last]
    split
    next up =>
      simp only [Bool.or_eq_true, Bool.and_eq_true, decide_eq_true_eq, beq_iff_eq] at up
      omega
    next down =>
      simp only [Bool.or_eq_true, Bool.and_eq_true, decide_eq_true_eq, beq_iff_eq] at down
      omega
  · have far : 2 * half * (k / (2 * half)) + 2 * half ≤ 2 * half * b := by
      rw [← Nat.mul_succ]
      exact Nat.mul_le_mul_left _ earlier
    split <;> omega

/-- A great integer is too great when its last place is, or when it is rounded up out of the greatest
place that there is. -/
theorem infinite_iff_of_large (s : Bool) {k : Nat} (large : 2 ^ 53 ≤ k) :
    ofRatio s k 1 = .infinite s ↔ 971 < lastPlace k ∨
      lastPlace k = 971 ∧ roundDiv k (2 ^ lastPlace k) = 2 ^ 53 := by
  rw [ofRatio_of_large s large]
  constructor
  · intro h
    split at h
    next carried =>
      split at h
      next => omega
      next => cases h
    next =>
      split at h
      next => omega
      next => cases h
  · rintro (outside | ⟨last, carried⟩)
    · rw [if_pos (show 970 < lastPlace k by omega), if_pos outside, ite_self]
    · rw [if_pos carried, if_pos (by omega)]

/-- An integer has no double from halfway between the greatest one and the next power on. -/
theorem infinite_iff (s : Bool) (k : Nat) : ofRatio s k 1 = .infinite s ↔ overflow ≤ k := by
  obtain ⟨n, hn⟩ : ∃ n, 970 = n := ⟨970, rfl⟩
  have tiny : 2 ^ 53 ≤ 2 ^ n := Nat.pow_le_pow_right Nat.two_pos (by omega)
  have inner (p : Nat) (h : p ≤ n) : 2 ^ (p + 53) ≤ 2 ^ n * 2 ^ 53 := by
    rw [← Nat.pow_add]
    exact Nat.pow_le_pow_right Nat.two_pos (by omega)
  have outer (p : Nat) (h : n + 1 < p) : 2 ^ n * 2 ^ 54 ≤ 2 ^ (p + 52) := by
    rw [← Nat.pow_add]
    exact Nat.pow_le_pow_right Nat.two_pos (by omega)
  rw [overflow, hn]
  rcases Nat.lt_or_ge k (2 ^ 53) with small | large
  · obtain ⟨m, e, finite⟩ := exists_finite s k
    rw [ofRatio_one s small, finite]
    constructor
    · intro h
      cases h
    · intro h
      omega
  · have hlog := le_log2 large
    have low : 2 ^ (lastPlace k + 52) ≤ k := by
      rw [lastPlace, Nat.sub_add_cancel (by omega)]
      exact Nat.log2_self_le (by omega)
    have high : k < 2 ^ (lastPlace k + 53) := by
      have next : lastPlace k + 53 = k.log2 + 1 := by
        unfold lastPlace
        omega
      rw [next]
      exact Nat.lt_log2_self
    rw [infinite_iff_of_large s large]
    rcases Nat.lt_trichotomy (lastPlace k) 971 with inside | last | outside
    · have less := inner (lastPlace k) (by omega)
      omega
    · have width : 2 ^ lastPlace k = 2 * 2 ^ n := by
        rw [show lastPlace k = n + 1 by omega, Nat.pow_succ']
      rw [Nat.pow_add, width] at high
      rw [width]
      have rounded := roundDiv_eq_iff (Nat.two_pow_pos 53) (by decide) high
      omega
    · have more := outer (lastPlace k) (by omega)
      omega

theorem ofRatio_cases (s : Bool) (num den : Nat) :
    (∃ m e, ofRatio s num den = .finite s m e) ∨ ofRatio s num den = .infinite s := by
  unfold ofRatio
  split
  · exact .inl ⟨_, _, rfl⟩
  · dsimp only
    split
    · split
      · exact .inr rfl
      · exact .inl ⟨_, _, rfl⟩
    · split
      · exact .inr rfl
      · exact .inl ⟨_, _, rfl⟩

/-- The integers without a double are those from the bound on. -/
theorem ofInt?_eq_none_iff {i : Int} : ofInt? i = none ↔ overflow ≤ i.natAbs := by
  rw [← infinite_iff (i < 0), ofInt?]
  rcases ofRatio_cases (i < 0) i.natAbs 1 with ⟨m, e, finite⟩ | infinite
  · rw [finite]
    constructor
    · intro h
      cases h
    · intro h
      cases h
  · rw [infinite]
    exact ⟨fun _ => rfl, fun _ => rfl⟩

/-- The double of an integer is an integer. -/
theorem isInteger_of_ofInt? {i : Int} {x : Binary64} (h : ofInt? i = some x) :
    x.isInteger = true := by
  rcases ofRatio_cases (i < 0) i.natAbs 1 with ⟨m, e, finite⟩ | infinite
  · rw [ofInt?, finite] at h
    cases h
    exact isInteger_of_ofRatio finite
  · rw [ofInt?, infinite] at h
    cases h

end Binary64

namespace Number

open Binary64

/-- An integer converts to a double exactly below the bound. -/
theorem toReal_int_iff {i : Int} :
    (∃ x, (Number.int i).toReal = .ok x) ↔ i.natAbs < overflow := by
  rw [← not_le, ← ofInt?_eq_none_iff, toReal]
  cases ofInt? i with
  | none => simp
  | some x => simp

theorem isInteger_of_toReal {i : Int} {x : Binary64} (h : (Number.int i).toReal = .ok x) :
    x.isInteger = true := by
  rw [toReal] at h
  split at h
  next near =>
    cases h
    exact isInteger_of_ofInt? near
  next => cases h

end Number

end Toolbar
