/-
# `Toolbar.Proofs.Calendar.Instant` — one order of instants

A stamp names an instant: a count of seconds.  If universal time shows the instant within the
calendar, the stamp that does so is found (`exists_toUniversal?`); and the texts of two such stamps
come in the order of the instants (`milliText_lt_iff`), because days are numbered in the order of
their dates and all parts are written with a fixed count of digits.

    HasUniversal        universal time shows the instant within the calendar
    secondsSince1970    the seconds from the beginning of 1970 in universal time
-/
import Toolbar.Proofs.Calendar.Days
import Toolbar.Proofs.Calendar.Places
import Toolbar.Proofs.Number.Exact
import Toolbar.Method.OfDate

namespace Toolbar

namespace Stamp

open Calendar

/-! ## Universal time -/

/-- Universal time shows the instant within the calendar. -/
def HasUniversal (t : Stamp) : Prop :=
  ∃ u : Stamp, u.offset = some 0 ∧ u.instant = t.instant

/-- The seconds from the beginning of 1970 to the instant of a stamp, in universal time. -/
def secondsSince1970 (t : Stamp) : Int :=
  86400 * t.date.daysSince1970 + t.daySecond - t.offset.getD 0

theorem daySecond_lt (t : Stamp) : t.daySecond < 86400 := by
  obtain ⟨hour, minute, second, -⟩ := t.isTime
  unfold daySecond
  omega

theorem offset_inside (t : Stamp) : -86400 < t.offset.getD 0 ∧ t.offset.getD 0 < 86400 := by
  have inside := t.isTime.2.2.2.2
  cases ho : t.offset with
  | none => decide
  | some o => rwa [ho] at inside

/-- The seconds that universal time shows at the instant. -/
def universalSeconds (t : Stamp) : Int :=
  t.shownSeconds - t.offset.getD 0

theorem universalSeconds_eq (t : Stamp) :
    t.universalSeconds = t.secondsSince1970 + 719163 * 86400 := by
  rw [universalSeconds, shownSeconds, secondsSince1970, Date.daysSince1970_eq]
  push_cast
  ring

/-- The day that universal time shows is a day of the calendar. -/
theorem HasUniversal.exists_ordinal {t : Stamp} (h : t.HasUniversal) :
    ∃ d : Date, (d.ordinal : Int) = t.universalSeconds / 86400 := by
  obtain ⟨u, noOffset, same⟩ := h
  refine ⟨u.date, ?_⟩
  have seconds : u.shownSeconds = t.universalSeconds := by
    have hu := u.isTime.2.2.2.1
    have ht := t.isTime.2.2.2.1
    rw [instant, instant, noOffset, Option.getD_some] at same
    unfold universalSeconds
    omega
  have hday := u.daySecond_lt
  rw [← seconds, shownSeconds]
  omega

/-- An instant that universal time can show is shown by a stamp with the offset zero. -/
theorem exists_toUniversal? {t : Stamp} (h : t.HasUniversal) :
    ∃ u : Stamp, t.toUniversal? = some u ∧ u.offset = some 0 ∧ u.micro = t.micro ∧
      u.shownSeconds = t.universalSeconds := by
  obtain ⟨d, hd⟩ := h.exists_ordinal
  have first := d.ordinal_pos
  have last := d.ordinal_le_last
  have hday := t.daySecond_lt
  have inside := t.offset_inside
  -- The seconds of the day in universal time, before they are brought into a day.
  obtain ⟨s, hs⟩ : ∃ s : Int, s = t.daySecond - t.offset.getD 0 := ⟨_, rfl⟩
  have total : t.universalSeconds = t.date.ordinal * 86400 + s := by
    rw [universalSeconds, shownSeconds, hs]
    omega
  rw [total] at hd
  have short : -365 ≤ s / 86400 ∧ s / 86400 ≤ 365 := by omega
  obtain ⟨e, found, number⟩ := t.date.exists_shift? short (by omega)
  have time : IsTime ((s % 86400).toNat / 3600) ((s % 86400).toNat / 60 % 60)
      ((s % 86400).toNat % 60) t.micro (some 0) :=
    ⟨by omega, by omega, by omega, t.isTime.2.2.2.1, by decide⟩
  refine ⟨⟨e, _, _, _, t.micro, some 0, time⟩, ?_, rfl, rfl, ?_⟩
  · unfold toUniversal?
    dsimp only
    rw [← hs, Int.fdiv_eq_ediv_of_nonneg _ (by decide), Int.fmod_eq_emod_of_nonneg _ (by decide),
      found, Option.bind_some, of?, dif_pos time]
  · have parts : (s % 86400).toNat / 3600 * 3600 + (s % 86400).toNat / 60 % 60 * 60 +
        (s % 86400).toNat % 60 = (s % 86400).toNat := by
      omega
    rw [total, shownSeconds, daySecond, parts]
    dsimp only
    omega

/-! ## The order of stamps -/

section Pair

variable {t t' : Stamp} (whole : t.micro = 0) (whole' : t'.micro = 0)
include whole whole'

theorem instant_lt_iff : t.instant < t'.instant ↔ t.secondsSince1970 < t'.secondsSince1970 := by
  have seconds := t.universalSeconds_eq
  have seconds' := t'.universalSeconds_eq
  rw [universalSeconds] at seconds seconds'
  rw [instant, instant, seconds, seconds', whole, whole']
  omega

/-- Two stamps are compared by their seconds, if both or neither have an offset. -/
theorem compare?_eq (kind : t.offset.isSome = t'.offset.isSome) :
    t.compare? t' = some (compare t.secondsSince1970 t'.secondsSince1970) := by
  have less := instant_lt_iff whole whole'
  have more := instant_lt_iff whole' whole
  rw [compare?, if_pos (by rw [kind, beq_self_eq_true])]
  refine congrArg some ?_
  rcases lt_trichotomy t.secondsSince1970 t'.secondsSince1970 with h | h | h
  · rw [compare_lt_iff_lt.mpr h, compare_lt_iff_lt.mpr (less.mpr h)]
  · rw [compare_eq_iff_eq.mpr h, compare_eq_iff_eq]
    omega
  · rw [compare_gt_iff_gt.mpr h, compare_gt_iff_gt.mpr (more.mpr h)]

theorem sameInstant_eq (kind : t.offset.isSome = t'.offset.isSome) :
    t.sameInstant t' = decide (t.secondsSince1970 = t'.secondsSince1970) := by
  rw [sameInstant, compare?_eq whole whole' kind, Bool.eq_iff_iff, beq_iff_eq, Option.some_inj,
    compare_eq_iff_eq, decide_eq_true_iff]

end Pair

/-! ## Texts in order -/

theorem shownSeconds_lt_iff {t u : Stamp} : t.shownSeconds < u.shownSeconds ↔
    t.date.ordinal < u.date.ordinal ∨
      t.date.ordinal = u.date.ordinal ∧ t.daySecond < u.daySecond := by
  have ht := t.daySecond_lt
  have hu := u.daySecond_lt
  unfold shownSeconds
  omega

/-- A time of day comes earlier in the order of hours, minutes and seconds. -/
theorem daySecond_lt_iff {t u : Stamp} : t.daySecond < u.daySecond ↔
    t.hour < u.hour ∨ t.hour = u.hour ∧
      (t.minute < u.minute ∨ t.minute = u.minute ∧ t.second < u.second) := by
  obtain ⟨-, tMinute, tSecond, -⟩ := t.isTime
  obtain ⟨-, uMinute, uSecond, -⟩ := u.isTime
  unfold daySecond
  omega

theorem daySecond_eq_iff {t u : Stamp} : t.daySecond = u.daySecond ↔
    t.hour = u.hour ∧ t.minute = u.minute ∧ t.second = u.second := by
  obtain ⟨-, tMinute, tSecond, -⟩ := t.isTime
  obtain ⟨-, uMinute, uSecond, -⟩ := u.isTime
  unfold daySecond
  omega

end Stamp

namespace Date

open Calendar

/-- Dates come in the order of their texts, whatever follows. -/
theorem isoText_append_lt_iff {d e : Date} {cs ds : List Char} :
    d.isoText ++ cs < e.isoText ++ ds ↔
      d.ordinal < e.ordinal ∨ d.ordinal = e.ordinal ∧ cs < ds := by
  have same : d.ordinal = e.ordinal ↔
      d.year = e.year ∧ d.month = e.month ∧ d.day = e.day := by
    rw [ordinal_inj]
    refine ⟨?_, fun h => ext_parts h.1 h.2.1 h.2.2⟩
    rintro rfl
    exact ⟨rfl, rfl, rfl⟩
  simp only [isoText_eq, List.append_assoc, List.cons_append]
  rw [field_lt_iff d.year_lt e.year_lt, mark_lt_iff, field_lt_iff d.month_lt e.month_lt,
    mark_lt_iff, field_lt_iff d.day_lt e.day_lt, ordinal_lt_iff, same, Precedes]
  simp only [and_or_left, or_assoc, and_assoc]

end Date

namespace Stamp

open Calendar

/-- Times of day come in the order of their texts, whatever follows. -/
theorem clockText_append_lt_iff {t u : Stamp} {cs ds : List Char} :
    t.clockText ++ cs < u.clockText ++ ds ↔
      t.daySecond < u.daySecond ∨ t.daySecond = u.daySecond ∧ cs < ds := by
  simp only [clockText_eq, List.append_assoc, List.cons_append]
  rw [field_lt_iff t.hour_lt u.hour_lt, mark_lt_iff, field_lt_iff t.minute_lt u.minute_lt,
    mark_lt_iff, field_lt_iff t.second_lt u.second_lt, daySecond_lt_iff, daySecond_eq_iff]
  simp only [and_or_left, or_assoc, and_assoc]

/-- The text of a stamp of whole seconds in universal time. -/
theorem milliText_eq {t : Stamp} (ht : t.offset = some 0) (whole : t.micro = 0) :
    t.milliText = t.date.isoText ++ 'T' :: (t.clockText ++ ".000Z".toList) := by
  rw [milliText, ht, whole, List.append_assoc, List.append_assoc, List.cons_append]
  rfl

/-- Stamps of whole seconds in universal time come in the order of their texts. -/
theorem milliText_lt_iff {t u : Stamp} (ht : t.offset = some 0) (hu : u.offset = some 0)
    (whole : t.micro = 0) (whole' : u.micro = 0) :
    t.milliText < u.milliText ↔ t.shownSeconds < u.shownSeconds := by
  rw [milliText_eq ht whole, milliText_eq hu whole', Date.isoText_append_lt_iff, mark_lt_iff,
    clockText_append_lt_iff, shownSeconds_lt_iff]
  simp

theorem milliText_eq_iff {t u : Stamp} (ht : t.offset = some 0) (hu : u.offset = some 0)
    (whole : t.micro = 0) (whole' : u.micro = 0) :
    t.milliText = u.milliText ↔ t.shownSeconds = u.shownSeconds := by
  constructor
  · intro same
    have notLess : ¬ t.shownSeconds < u.shownSeconds := fun less =>
      absurd ((milliText_lt_iff ht hu whole whole').mpr less) (same ▸ List.lt_irrefl _)
    have notMore : ¬ u.shownSeconds < t.shownSeconds := fun more =>
      absurd ((milliText_lt_iff hu ht whole' whole).mpr more) (same ▸ List.lt_irrefl _)
    omega
  · intro same
    have hday := t.daySecond_lt
    have hday' := u.daySecond_lt
    unfold shownSeconds at same
    have date : t.date = u.date := Date.ordinal_inj.mp (by omega)
    obtain ⟨hour, minute, second⟩ := daySecond_eq_iff.mp (show t.daySecond = u.daySecond by omega)
    rw [milliText_eq ht whole, milliText_eq hu whole', clockText, clockText, date, hour, minute,
      second]

/-! ## Milliseconds and texts -/

theorem sinceEpoch_eq {t : Stamp} (whole : t.micro = 0) :
    t.sinceEpoch = t.secondsSince1970 * (1000000 : Nat) := by
  have seconds := t.universalSeconds_eq
  rw [universalSeconds] at seconds
  rw [sinceEpoch, instant, epoch, seconds, whole]
  push_cast
  ring

/-- The seconds of the calendar are few enough for doubles, also in thousandths. -/
theorem natAbs_secondsSince1970_lt (t : Stamp) : t.secondsSince1970.natAbs < 2 ^ 43 := by
  have first := t.date.ordinal_pos
  have last : t.date.ordinal ≤ 3652059 := t.date.ordinal_le_last
  have hday := t.daySecond_lt
  have inside := t.offset_inside
  rw [secondsSince1970, Date.daysSince1970_eq]
  omega

/-- The milliseconds since the beginning of 1970 are exact. -/
theorem epochMillis_eq {t : Stamp} (whole : t.micro = 0) :
    Method.epochMillis t = .ok (1000 * t.secondsSince1970) := by
  have few := t.natAbs_secondsSince1970_lt
  have seconds := @Number.div_mul t.secondsSince1970 1000000 (by omega) (by decide)
  have millis := @Number.mul_int t.secondsSince1970 1000 (by omega) (by decide) (by decide)
    (by omega)
  have cut := @Number.truncate_ofWhole (t.secondsSince1970 * (1000 : Nat)) (by omega)
  rw [← sinceEpoch_eq whole] at seconds
  rw [Nat.cast_ofNat] at seconds millis cut
  unfold Method.epochMillis
  rw [seconds]
  simp only [bind, Except.bind, millis]
  exact cut.trans (congrArg Except.ok (Int.mul_comm _ _))

theorem isoInstant_eq {t u : Stamp} (h : t.toUniversal? = some u) :
    Method.isoInstant t = .ok u.display := by
  rw [Method.isoInstant, h]

end Stamp

end Toolbar
