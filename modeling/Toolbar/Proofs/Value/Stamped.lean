/-
# `Toolbar.Proofs.Value.Stamped` — which texts are taken for time stamps

A time stamp is written with four digits for the year and two for every other part, and with a
zone.  What such a text shows, possible or not, is a `Face`; a text shows at most one.  A text that
shows a possible face is taken for the stamp of the face, and every other text stays a text
(`coerce_eq`, `coerce_eq_self`).

What makes an offset possible is that it is within a day.  Its minutes may be more than an hour:
`+01:75` is the offset of two hours and a quarter.

    Zone    nothing, `Z`, or a sign with hours and minutes
    Face    the numbers that a text shows
-/
import Toolbar.Proofs.Value.StampText

namespace Toolbar

namespace Value

open Text Calendar

/-! ## What a text shows -/

/-- The zone that a text shows. -/
inductive Zone where
  | none
  | zulu
  | clock (behind : Bool) (hours minutes : Fin 100)

namespace Zone

def text : Zone → List Char
  | none => []
  | zulu => ['Z']
  | clock behind hours minutes =>
      (if behind then '-' else '+') :: (places 2 hours ++ ':' :: places 2 minutes)

/-- The offset of a zone in seconds; its minutes may be more than an hour. -/
def offset : Zone → Option Int
  | none => .none
  | zulu => some 0
  | clock behind hours minutes =>
      let seconds : Int := (hours.val * 3600 + minutes.val * 60 : Nat)
      some (if behind then -seconds else seconds)

def groups : Zone → ZoneGroups
  | none => .none
  | zulu => .zulu
  | clock behind hours minutes => .clock behind (.ofNat 2 hours) (.ofNat 2 minutes)

theorem text_groups (z : Zone) : z.groups.text = z.text := by
  cases z <;> rfl

theorem offset?_groups (z : Zone) : z.groups.offset? = some z.offset := by
  cases z with
  | none => rfl
  | zulu => rfl
  | clock behind hours minutes =>
      rw [groups, ZoneGroups.offset?, Group.value?_ofNat hours.isLt,
        Group.value?_ofNat minutes.isLt]
      rfl

/-- Groups with a value are those of a zone. -/
theorem exists_groups {zone : ZoneGroups} {o : Option Int} (h : zone.offset? = some o) :
    ∃ z : Zone, z.groups = zone := by
  cases zone with
  | none => exact ⟨.none, rfl⟩
  | zulu => exact ⟨.zulu, rfl⟩
  | clock behind hours minutes =>
      simp only [ZoneGroups.offset?, Option.bind_eq_some_iff] at h
      obtain ⟨_, hhours, _, hminutes, -⟩ := h
      obtain ⟨h, rfl⟩ := Group.exists_fin hhours
      obtain ⟨m, rfl⟩ := Group.exists_fin hminutes
      exact ⟨.clock behind h m, rfl⟩

end Zone

/-- The numbers that the text of a time stamp shows. -/
structure Face where
  year : Fin 10000
  month : Fin 100
  day : Fin 100
  hour : Fin 100
  minute : Fin 100
  second : Fin 100
  zone : Zone

namespace Face

/-- The text that shows the numbers, with `between` between date and time. -/
def text (between : Char) (f : Face) : List Char :=
  places 4 f.year ++ '-' :: places 2 f.month ++ '-' :: places 2 f.day
    ++ between :: places 2 f.hour ++ ':' :: places 2 f.minute ++ ':' :: places 2 f.second
    ++ f.zone.text

/-- The day exists, the time is one of a day, and the offset is within a day. -/
def Possible (f : Face) : Prop :=
  IsDay f.year f.month f.day ∧ IsTime f.hour f.minute f.second 0 f.zone.offset

instance (f : Face) : Decidable f.Possible := by
  unfold Possible
  infer_instance

/-- The stamp that a possible face shows. -/
def stamp (f : Face) (h : f.Possible) : Stamp :=
  ⟨⟨f.year, f.month, f.day, h.1⟩, f.hour, f.minute, f.second, 0, f.zone.offset, h.2⟩

def groups (f : Face) : Groups :=
  ⟨.ofNat 4 f.year, .ofNat 2 f.month, .ofNat 2 f.day, .ofNat 2 f.hour, .ofNat 2 f.minute,
    .ofNat 2 f.second, f.zone.groups⟩

theorem text_groups (f : Face) (between : Char) : f.groups.text between = f.text between := by
  simp [groups, Groups.text, Groups.dateText, Groups.clockText, text, Group.ofNat,
    Zone.text_groups]

/-- What is read is the stamp of the face, if it is possible. -/
theorem stamp?_groups (f : Face) :
    f.groups.stamp? = if h : f.Possible then some (f.stamp h) else none := by
  have date : f.groups.date? = Date.of? f.year f.month f.day := by
    rw [groups, Groups.date?, Group.value?_ofNat f.year.isLt, Group.value?_ofNat f.month.isLt,
      Group.value?_ofNat f.day.isLt]
    rfl
  have time (d : Date) :
      f.groups.timeOn? d = Stamp.of? d f.hour f.minute f.second 0 f.zone.offset := by
    rw [groups, Groups.timeOn?, Group.value?_ofNat f.hour.isLt, Group.value?_ofNat f.minute.isLt,
      Group.value?_ofNat f.second.isLt, Zone.offset?_groups]
    rfl
  rw [Groups.stamp?, date, Date.of?]
  by_cases hday : IsDay f.year f.month f.day
  · rw [dif_pos hday, Option.bind_some, time, Stamp.of?]
    by_cases htime : IsTime f.hour f.minute f.second 0 f.zone.offset
    · rw [dif_pos htime, dif_pos ⟨hday, htime⟩]
      rfl
    · rw [dif_neg htime, dif_neg fun h => htime h.2]
  · rw [dif_neg hday, dif_neg fun h => hday h.1, Option.bind_none]

/-- Groups that denote a stamp are those of a face. -/
theorem exists_groups {g : Groups} {t : Stamp} (h : g.stamp? = some t) :
    ∃ f : Face, f.groups = g := by
  simp only [Groups.stamp?, Groups.date?, Groups.timeOn?, Option.bind_eq_some_iff] at h
  obtain ⟨_, ⟨_, hy, _, hmo, _, hday, -⟩, _, hhour, _, hmi, _, hs, _, ho, -⟩ := h
  obtain ⟨gy, gmo, gday, gh, gmi, gs, zone⟩ := g
  obtain ⟨y, rfl⟩ := Group.exists_fin hy
  obtain ⟨mo, rfl⟩ := Group.exists_fin hmo
  obtain ⟨day, rfl⟩ := Group.exists_fin hday
  obtain ⟨hour, rfl⟩ := Group.exists_fin hhour
  obtain ⟨mi, rfl⟩ := Group.exists_fin hmi
  obtain ⟨s, rfl⟩ := Group.exists_fin hs
  obtain ⟨z, rfl⟩ := Zone.exists_groups ho
  exact ⟨⟨y, mo, day, hour, mi, s, z⟩, rfl⟩

/-- The text shows the face, with a `T` or one blank between date and time. -/
def ShownBy (f : Face) (s : String) : Prop :=
  ∃ between, Divides between ∧ s.toList = f.text between

end Face

/-- A text that shows a possible face is taken for the stamp of the face. -/
theorem coerce_eq {f : Face} {s : String} (shown : f.ShownBy s) :
    coerce (.text s) = if h : f.Possible then .stamp (f.stamp h) else .text s := by
  obtain ⟨between, divides, text⟩ := shown
  have groups : s.toList = f.groups.text between ++ [] := by
    rw [text, f.text_groups, List.append_nil]
  have looks : isStampText s = true := isStampText_iff.mpr ⟨_, _, [], divides, rfl, groups⟩
  have read : readStamp? s = f.groups.stamp? := readStamp?_text rfl groups
  rw [coerce, if_pos looks, read, f.stamp?_groups]
  split <;> rfl

/-- A text that shows no face stays a text. -/
theorem coerce_eq_self {s : String} (h : ∀ f : Face, ¬ f.ShownBy s) :
    coerce (.text s) = .text s := by
  rw [coerce]
  by_cases looks : isStampText s = true
  · obtain ⟨g, between, ending, divides, hend, text⟩ := isStampText_iff.mp looks
    have unread : readStamp? s = none := by
      rw [readStamp?_text hend text]
      obtain rfl | rfl := isLineEnd_iff.mp hend
      · cases hg : g.stamp? with
        | none => rfl
        | some t =>
            obtain ⟨f, rfl⟩ := Face.exists_groups hg
            exact absurd ⟨between, divides, by simpa [f.text_groups] using text⟩ (h f)
      · rfl
    rw [if_pos looks, unread]
    rfl
  · rw [if_neg looks]

/-- A stamp that a text is taken for has whole seconds. -/
theorem micro_of_coerce {s : String} {t : Stamp} (h : coerce (.text s) = .stamp t) :
    t.micro = 0 := by
  by_cases shown : ∃ f : Face, f.ShownBy s
  · obtain ⟨f, shown⟩ := shown
    rw [coerce_eq shown] at h
    split at h
    next => cases h; rfl
    next => cases h
  · rw [coerce_eq_self (not_exists.mp shown)] at h
    cases h

/-! ## Writing and reading back -/

/-- A date and time of whole seconds is shown, with any zone of its offset. -/
theorem exists_face {t : Stamp} (whole : t.micro = 0) {z : Zone} (hz : z.offset = t.offset) :
    ∃ f : Face, (∀ between, f.text between = t.date.isoText ++ between :: t.clockText ++ z.text) ∧
      ∃ h : f.Possible, f.stamp h = t := by
  refine ⟨⟨⟨t.date.year, t.date.year_lt⟩, ⟨t.date.month, t.date.month_lt⟩,
    ⟨t.date.day, t.date.day_lt⟩, ⟨t.hour, t.hour_lt⟩, ⟨t.minute, t.minute_lt⟩,
    ⟨t.second, t.second_lt⟩, z⟩, fun between => ?_, ?_⟩
  · rw [Date.isoText_eq, Stamp.clockText_eq]
    simp [Face.text]
  · obtain ⟨d, hour, minute, second, micro, offset, isTime⟩ := t
    cases whole
    cases hz
    exact ⟨⟨d.isDay, isTime⟩, rfl⟩

/-- An offset of whole minutes is written as a zone. -/
theorem exists_zone {o : Int} (inside : -86400 < o ∧ o < 86400) (whole : 60 ∣ o) :
    ∃ z : Zone, z.offset = some o ∧ z.text = Stamp.offsetText [':'] o := by
  have hours : o.natAbs / 3600 < 10 ^ 2 := by omega
  have minutes : o.natAbs / 60 % 60 < 10 ^ 2 := by omega
  have noSeconds : o.natAbs % 60 = 0 := by omega
  refine ⟨.clock (decide (o < 0)) ⟨_, hours⟩ ⟨_, minutes⟩, ?_, ?_⟩
  · simp only [Zone.offset, decide_eq_true_eq, Option.some.injEq]
    split <;> omega
  · have two : 0 < 2 := by decide
    simp only [Zone.text, decide_eq_true_eq, Stamp.offsetText, padded_eq_places two hours,
      padded_eq_places two minutes, if_pos noSeconds]
    simp

/-- Writing a date and time of whole seconds, with an offset of whole minutes or none, and reading
it gives it back; a text of another form, or one that shows an impossible day, time or offset, is
left as it is. -/
theorem coerce_isoText :
    (∀ (t : Stamp) (between : Char), t.micro = 0 → (∀ o ∈ t.offset, 60 ∣ o) → Divides between →
      coerce (.text (String.ofList (t.isoText between))) = .stamp t ∧
      (t.offset = some 0 →
        coerce (.text (String.ofList (t.date.isoText ++ between :: t.clockText ++ ['Z']))) =
          .stamp t)) ∧
    (∀ s : String, (∀ f : Face, ¬ f.ShownBy s) → coerce (.text s) = .text s) ∧
    ∀ (s : String) (f : Face), f.ShownBy s →
      (¬ f.Possible → coerce (.text s) = .text s) ∧
      ∀ h : f.Possible, coerce (.text s) = .stamp (f.stamp h) := by
  refine ⟨fun t between whole minutes divides => ?_, fun s => coerce_eq_self, fun s f shown => ?_⟩
  · -- A zone that names the offset, and the face with this zone.
    have back {z : Zone} (hz : z.offset = t.offset) : coerce (.text (String.ofList
        (t.date.isoText ++ between :: t.clockText ++ z.text))) = .stamp t := by
      obtain ⟨f, text, possible, same⟩ := exists_face whole hz
      have shown : f.ShownBy (String.ofList (f.text between)) :=
        ⟨between, divides, String.toList_ofList⟩
      rw [← text, coerce_eq shown, dif_pos possible, same]
    refine ⟨?_, fun zero => back (z := .zulu) zero.symm⟩
    rw [Stamp.isoText, if_pos whole, List.append_nil]
    cases ho : t.offset with
    | none => exact back (z := .none) ho.symm
    | some o =>
        have inside : IsOffset t.offset := t.isTime.2.2.2.2
        rw [ho] at inside
        obtain ⟨z, hz, text⟩ := exists_zone inside (minutes o ho)
        dsimp only
        rw [← text]
        exact back (hz.trans ho.symm)
  · rw [coerce_eq shown]
    exact ⟨fun impossible => dif_neg impossible, fun possible => dif_pos possible⟩

/-- The last second of a leap day with an ideographic blank before the time, the first moment of the
calendar with a `Z`, a text with a fraction, and a leap day of a year that has none. -/
theorem leapDay_coerced :
    let leap : Stamp := ⟨⟨2024, 2, 29, by decide⟩, 23, 59, 59, 0, some (-19800), by decide⟩
    let first : Stamp := ⟨⟨1, 1, 1, by decide⟩, 0, 0, 0, 0, some 0, by decide⟩
    coerce (.text "2024-02-29\u300023:59:59-05:30") = .stamp leap ∧
    coerce (.text "0001-01-01T00:00:00Z") = .stamp first ∧
    coerce (.text "2024-02-29T23:59:59.5") = .text "2024-02-29T23:59:59.5" ∧
    coerce (.text "2023-02-29T23:59:59") = .text "2023-02-29T23:59:59" := by
  intro leap first
  obtain ⟨written, unshown, shown⟩ := coerce_isoText
  have leapText : String.ofList (leap.isoText '\u3000') = "2024-02-29\u300023:59:59-05:30" := by
    decide +kernel
  have firstText : String.ofList (first.date.isoText ++ 'T' :: first.clockText ++ ['Z']) =
      "0001-01-01T00:00:00Z" := by
    decide +kernel
  have fraction (f : Face) : ¬ f.ShownBy "2024-02-29T23:59:59.5" := by
    rintro ⟨between, -, text⟩
    have length := congrArg List.length text
    cases hz : f.zone <;> simp [Face.text, Zone.text, hz] at length
  have common : Face.ShownBy ⟨2023, 2, 29, 23, 59, 59, .none⟩ "2023-02-29T23:59:59" :=
    ⟨'T', .inl rfl, by decide +kernel⟩
  refine ⟨?_, ?_, unshown _ fraction, (shown _ _ common).1 (by decide)⟩
  · rw [← leapText]
    exact (written leap '\u3000' rfl (by decide) (.inr (by decide))).1
  · rw [← firstText]
    exact (written first 'T' rfl (by decide) (.inl rfl)).2 rfl

end Value

end Toolbar
