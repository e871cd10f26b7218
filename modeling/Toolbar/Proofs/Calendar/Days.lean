/-
# `Toolbar.Proofs.Calendar.Days` — the count of the days

The number of a day within the calendar is computed by a formula for the years before it.  The
formula is the sum of the lengths of these years, each with its leap day (`daysBeforeYear_eq_sum`),
so the numbers grow with the date (`ordinal_lt_iff`) and a step of days within the calendar comes to
the day with the number that is so much greater (`exists_shift?`).

    daysSince1970    the days from the beginning of 1970, counted year by year and month by month
-/
import Mathlib.Algebra.BigOperators.Intervals
import Mathlib.Algebra.Order.BigOperators.Group.Finset
import Toolbar.Calendar.Date

namespace Toolbar

namespace Calendar

/-! ## Years and months -/

/-- A year has one day more than 365 if it is a leap year. -/
theorem daysBeforeYear_succ {year : Nat} (positive : 1 ≤ year) :
    daysBeforeYear (year + 1) = daysBeforeYear year + daysInYear year := by
  obtain ⟨y, rfl⟩ := Nat.exists_eq_add_of_le' positive
  -- The hundredth years are among the fourth ones, and the four hundredth among these.
  have fourth : 100 ∣ y + 1 → 4 ∣ y + 1 := Nat.dvd_trans (by decide)
  have hundredth : 400 ∣ y + 1 → 100 ∣ y + 1 := Nat.dvd_trans (by decide)
  have fewer : y / 100 ≤ y / 4 := Nat.div_le_div_left (by decide) (by decide)
  have leap : isLeap (y + 1) = true ↔ 4 ∣ y + 1 ∧ (¬ 100 ∣ y + 1 ∨ 400 ∣ y + 1) := by
    simp [isLeap, Nat.dvd_iff_mod_eq_zero]
  simp only [daysBeforeYear, daysInYear, Nat.add_sub_cancel, Nat.succ_div, leap]
  by_cases h4 : 4 ∣ y + 1
  · by_cases h100 : 100 ∣ y + 1
    · by_cases h400 : 400 ∣ y + 1
      · rw [if_pos h4, if_pos h100, if_pos h400, if_pos ⟨h4, .inr h400⟩]
        omega
      · rw [if_pos h4, if_pos h100, if_neg h400, if_neg (by tauto)]
        omega
    · rw [if_pos h4, if_neg h100, if_neg (mt hundredth h100), if_pos ⟨h4, .inl h100⟩]
      omega
  · have h100 := mt fourth h4
    rw [if_neg h4, if_neg h100, if_neg (mt hundredth h100), if_neg (fun h => h4 h.1)]
    omega

/-- The days before a year are those of all years before it. -/
theorem daysBeforeYear_eq_sum {year : Nat} (positive : 1 ≤ year) :
    daysBeforeYear year = ∑ y ∈ Finset.Ico 1 year, daysInYear y := by
  induction year, positive using Nat.le_induction with
  | base => rfl
  | succ year positive ih =>
      rw [daysBeforeYear_succ positive, ih, Finset.sum_Ico_succ_top positive]

theorem daysBeforeYear_mono {y z : Nat} (positive : 1 ≤ y) (h : y ≤ z) :
    daysBeforeYear y ≤ daysBeforeYear z := by
  rw [daysBeforeYear_eq_sum positive, daysBeforeYear_eq_sum (positive.trans h)]
  exact Finset.sum_le_sum_of_subset (Finset.Ico_subset_Ico_right h)

theorem daysBeforeMonth_succ (year : Nat) {month : Nat} (positive : 1 ≤ month) :
    daysBeforeMonth year (month + 1) = daysBeforeMonth year month + daysInMonth year month := by
  obtain ⟨month, rfl⟩ := Nat.exists_eq_add_of_le' positive
  rfl

/-- The days of a year before a month are those of all months before it. -/
theorem daysBeforeMonth_eq_sum (year : Nat) {month : Nat} (positive : 1 ≤ month) :
    daysBeforeMonth year month = ∑ m ∈ Finset.Ico 1 month, daysInMonth year m := by
  induction month, positive using Nat.le_induction with
  | base => rfl
  | succ month positive ih =>
      rw [daysBeforeMonth_succ year positive, ih, Finset.sum_Ico_succ_top positive]

theorem daysBeforeMonth_mono (year : Nat) {m n : Nat} (positive : 1 ≤ m) (h : m ≤ n) :
    daysBeforeMonth year m ≤ daysBeforeMonth year n := by
  rw [daysBeforeMonth_eq_sum year positive, daysBeforeMonth_eq_sum year (positive.trans h)]
  exact Finset.sum_le_sum_of_subset (Finset.Ico_subset_Ico_right h)

theorem daysInMonth_le (year month : Nat) : daysInMonth year month ≤ 31 := by
  unfold daysInMonth
  split
  · split <;> decide
  · split <;> decide

/-- Twelve months are a year. -/
theorem daysBeforeMonth_thirteen (year : Nat) : daysBeforeMonth year 13 = daysInYear year := by
  unfold daysInYear
  cases h : isLeap year <;> simp [daysBeforeMonth, daysInMonth, h]

end Calendar

namespace Date

open Calendar

/-! ## The number of a day -/

theorem year_pos (d : Date) : 1 ≤ d.year := d.isDay.1

theorem month_pos (d : Date) : 1 ≤ d.month := d.isDay.2.2.1

theorem day_pos (d : Date) : 1 ≤ d.day := d.isDay.2.2.2.2.1

theorem day_le (d : Date) : d.day ≤ daysInMonth d.year d.month := d.isDay.2.2.2.2.2

theorem year_lt (d : Date) : d.year < 10 ^ 4 :=
  Nat.lt_of_le_of_lt d.isDay.2.1 (by decide)

theorem month_lt (d : Date) : d.month < 10 ^ 2 :=
  Nat.lt_of_le_of_lt d.isDay.2.2.2.1 (by decide)

theorem day_lt (d : Date) : d.day < 10 ^ 2 :=
  Nat.lt_of_le_of_lt (d.day_le.trans (daysInMonth_le _ _)) (by decide)

/-- A day comes before the next month begins. -/
theorem yearDay_le (d : Date) : d.yearDay ≤ daysBeforeMonth d.year (d.month + 1) := by
  rw [daysBeforeMonth_succ _ d.month_pos]
  exact Nat.add_le_add_left d.day_le _

theorem yearDay_pos (d : Date) : 1 ≤ d.yearDay :=
  d.day_pos.trans (Nat.le_add_left ..)

theorem yearDay_le_daysInYear (d : Date) : d.yearDay ≤ daysInYear d.year := by
  rw [← daysBeforeMonth_thirteen]
  exact d.yearDay_le.trans
    (daysBeforeMonth_mono _ (Nat.le_add_left ..) (Nat.succ_le_succ d.isDay.2.2.2.1))

/-- A day comes before the next year begins. -/
theorem ordinal_le (d : Date) : d.ordinal ≤ daysBeforeYear (d.year + 1) := by
  rw [daysBeforeYear_succ d.year_pos]
  exact Nat.add_le_add_left d.yearDay_le_daysInYear _

theorem ordinal_pos (d : Date) : 1 ≤ d.ordinal :=
  d.yearDay_pos.trans (Nat.le_add_left ..)

theorem ordinal_le_last (d : Date) : d.ordinal ≤ daysBeforeYear (lastYear + 1) :=
  d.ordinal_le.trans (daysBeforeYear_mono (Nat.le_add_left ..) (Nat.succ_le_succ d.isDay.2.1))

/-- The parts of `d` come before those of `e`. -/
def Precedes (d e : Date) : Prop :=
  d.year < e.year ∨ d.year = e.year ∧ (d.month < e.month ∨ d.month = e.month ∧ d.day < e.day)

theorem ordinal_lt_of_precedes {d e : Date} (h : d.Precedes e) : d.ordinal < e.ordinal := by
  rcases h with year | ⟨year, month | ⟨month, day⟩⟩
  · calc d.ordinal
        ≤ daysBeforeYear (d.year + 1) := d.ordinal_le
      _ ≤ daysBeforeYear e.year := daysBeforeYear_mono (Nat.le_add_left ..) year
      _ < e.ordinal := Nat.lt_add_of_pos_right e.yearDay_pos
  · have less : d.yearDay < e.yearDay := calc
      d.yearDay ≤ daysBeforeMonth d.year (d.month + 1) := d.yearDay_le
      _ ≤ daysBeforeMonth d.year e.month := daysBeforeMonth_mono _ (Nat.le_add_left ..) month
      _ = daysBeforeMonth e.year e.month := by rw [year]
      _ < e.yearDay := Nat.lt_add_of_pos_right e.day_pos
    rw [ordinal, ordinal, year]
    exact Nat.add_lt_add_left less _
  · rw [ordinal, ordinal, yearDay, yearDay, year, month]
    omega

theorem ext_parts {d e : Date} (year : d.year = e.year) (month : d.month = e.month)
    (day : d.day = e.day) : d = e := by
  cases d
  cases e
  cases year
  cases month
  cases day
  rfl

/-- Days are numbered in the order of their dates. -/
theorem ordinal_lt_iff {d e : Date} : d.ordinal < e.ordinal ↔ d.Precedes e := by
  refine ⟨fun less => ?_, ordinal_lt_of_precedes⟩
  by_contra notBefore
  have after : d = e ∨ e.Precedes d := by
    unfold Precedes at notBefore ⊢
    by_cases same : d.year = e.year ∧ d.month = e.month ∧ d.day = e.day
    · exact .inl (ext_parts same.1 same.2.1 same.2.2)
    · right
      omega
  rcases after with rfl | after
  · exact Nat.lt_irrefl _ less
  · exact Nat.lt_asymm less (ordinal_lt_of_precedes after)

theorem ordinal_inj {d e : Date} : d.ordinal = e.ordinal ↔ d = e := by
  refine ⟨fun same => ?_, congrArg ordinal⟩
  have notLess : ¬ d.Precedes e := fun h => absurd (ordinal_lt_of_precedes h) (by omega)
  have notMore : ¬ e.Precedes d := fun h => absurd (ordinal_lt_of_precedes h) (by omega)
  unfold Precedes at notLess notMore
  exact ext_parts (by omega) (by omega) (by omega)

/-! ## Steps of days -/

/-- A day of a year is found in one of its months. -/
theorem exists_ofMonthDay? {year : Nat} (hyear : 1 ≤ year ∧ year ≤ lastYear) {months month n : Nat}
    (twelve : months + month = 13) (hmonth : 1 ≤ month) (hn : 1 ≤ n)
    (inside : daysBeforeMonth year month + n ≤ daysInYear year) :
    ∃ d, ofMonthDay? year months month n = some d ∧ d.year = year ∧
      d.yearDay = daysBeforeMonth year month + n := by
  induction months generalizing month n with
  | zero =>
      obtain rfl : month = 13 := by omega
      rw [daysBeforeMonth_thirteen] at inside
      omega
  | succ months ih =>
      rw [ofMonthDay?]
      split
      next here =>
        have isDay : IsDay year month n := ⟨hyear.1, hyear.2, hmonth, by omega, hn, here⟩
        exact ⟨⟨year, month, n, isDay⟩, dif_pos isDay, rfl, rfl⟩
      next later =>
        have next := daysBeforeMonth_succ year hmonth
        obtain ⟨d, found, sameYear, number⟩ :=
          @ih (month + 1) (n - daysInMonth year month) (by omega) (by omega) (by omega) (by omega)
        exact ⟨d, found, sameYear, by omega⟩

theorem exists_ofYearDay_inside {year n : Nat} (hyear : 1 ≤ year ∧ year ≤ lastYear) (hn : 1 ≤ n)
    (inside : n ≤ daysInYear year) :
    ∃ d, ofMonthDay? year 12 1 n = some d ∧ d.ordinal = daysBeforeYear year + n := by
  obtain ⟨d, found, sameYear, number⟩ :=
    exists_ofMonthDay? hyear (Nat.add_comm 12 1) (Nat.le_refl 1) hn
      (by rw [daysBeforeMonth]; omega)
  refine ⟨d, found, ?_⟩
  rw [ordinal, sameYear, number, daysBeforeMonth, Nat.zero_add]

/-- A step of days that stays within the calendar comes to the day with that number. -/
theorem exists_shift? (d : Date) {days : Int} (short : -365 ≤ days ∧ days ≤ 365)
    (within : 1 ≤ d.ordinal + days ∧ d.ordinal + days ≤ daysBeforeYear (lastYear + 1)) :
    ∃ e, d.shift? days = some e ∧ (e.ordinal : Int) = d.ordinal + days := by
  have long (year : Nat) : 365 ≤ daysInYear year := by
    unfold daysInYear
    split <;> omega
  have number : d.ordinal = daysBeforeYear d.year + d.yearDay := rfl
  have positive := d.yearDay_pos
  have inside := d.yearDay_le_daysInYear
  have hyear := d.isDay.1
  have hlast := d.isDay.2.1
  have next := daysBeforeYear_succ hyear
  unfold shift? ofYearDay?
  split
  next before =>
    -- The day lies in the year before, so there is one.
    have second : 2 ≤ d.year := by
      by_contra first
      have first : d.year = 1 := by omega
      rw [first] at number
      have start : daysBeforeYear 1 = 0 := rfl
      omega
    have previous := daysBeforeYear_succ (show 1 ≤ d.year - 1 by omega)
    rw [Nat.sub_add_cancel hyear] at previous
    have least := long (d.year - 1)
    obtain ⟨e, found, hnumber⟩ := @exists_ofYearDay_inside (d.year - 1)
      (d.yearDay + days + daysInYear (d.year - 1)).toNat ⟨by omega, by omega⟩ (by omega) (by omega)
    exact ⟨e, found, by omega⟩
  next =>
    split
    next =>
      obtain ⟨e, found, hnumber⟩ := @exists_ofYearDay_inside d.year (d.yearDay + days).toNat
        ⟨hyear, hlast⟩ (by omega) (by omega)
      exact ⟨e, found, by omega⟩
    next after =>
      -- The day lies in the year after, so this one is not the last.
      have notLast : d.year + 1 ≤ lastYear := by
        by_contra last
        have last : d.year = lastYear := by omega
        rw [last] at next number inside after
        omega
      have least := long (d.year + 1)
      obtain ⟨e, found, hnumber⟩ := @exists_ofYearDay_inside (d.year + 1)
        (d.yearDay + days - daysInYear d.year).toNat ⟨by omega, notLast⟩ (by omega) (by omega)
      exact ⟨e, found, by omega⟩

/-! ## Since 1970 -/

/-- The days from the beginning of 1970 to a date, counted year by year and month by month. -/
def daysSince1970 (d : Date) : Int :=
  (∑ y ∈ Finset.Ico 1 d.year, daysInYear y : Nat) - (∑ y ∈ Finset.Ico 1 1970, daysInYear y : Nat) +
    (∑ m ∈ Finset.Ico 1 d.month, daysInMonth d.year m : Nat) + d.day - 1

theorem daysSince1970_eq (d : Date) : d.daysSince1970 = d.ordinal - 719163 := by
  have start : daysBeforeYear 1970 = 719162 := rfl
  rw [daysSince1970, ← daysBeforeYear_eq_sum d.year_pos, ← daysBeforeYear_eq_sum (by decide), start,
    ← daysBeforeMonth_eq_sum _ d.month_pos, ordinal, yearDay]
  omega

end Date

end Toolbar
