/-
# `Toolbar.Proofs.Value.StampText` — the texts that look like time stamps

A text looks like a time stamp when it is made of the groups of one and a line end may follow
(`isStampText_iff`).  What is done to such a text before it is read, a `T` for the blank and zeros
for the `Z`, leaves the groups and what they denote (`readStamp?_text`).
-/
import Toolbar.Proofs.Calendar.Reading
import Toolbar.Proofs.Text.Replace

namespace Toolbar

namespace Text

open Calendar

/-! ## Shapes -/

theorem dropShape?_digits (width : Nat) {shape cs rest : List Char} :
    dropShape? (List.replicate width 'd' ++ shape) cs = some rest ↔
      ∃ (g : Group width) (cs' : List Char), cs = g.digits ++ cs' ∧
        dropShape? shape cs' = some rest := by
  induction width generalizing cs with
  | zero =>
      constructor
      · intro h
        exact ⟨⟨[], rfl, by simp⟩, cs, rfl, h⟩
      · rintro ⟨⟨ds, none, -⟩, cs', rfl, h⟩
        obtain rfl := List.length_eq_zero_iff.mp none
        exact h
  | succ width ih =>
      cases cs with
      | nil =>
          constructor
          · intro h
            cases h
          · rintro ⟨g, cs', text, -⟩
            have count := congrArg List.length text
            rw [List.length_nil, List.length_append, g.count] at count
            omega
      | cons c cs =>
          have asked : (if 'd' == 'd' then isDigit c else c == 'd') = isDigit c := if_pos rfl
          rw [List.replicate_succ, List.cons_append, dropShape?, asked,
            Option.ite_none_right_eq_some, ih]
          constructor
          · rintro ⟨digit, ⟨ds, count, digits⟩, cs', rfl, h⟩
            exact ⟨⟨c :: ds, by rw [List.length_cons, count],
              List.forall_mem_cons.mpr ⟨digit, digits⟩⟩, cs', rfl, h⟩
          · rintro ⟨⟨ds, count, digits⟩, cs', text, h⟩
            cases ds with
            | nil => cases count
            | cons d ds =>
                obtain ⟨rfl, rfl⟩ := List.cons.inj text
                obtain ⟨digit, digits⟩ := List.forall_mem_cons.mp digits
                exact ⟨digit, ⟨ds, Nat.succ.inj count, digits⟩, cs', rfl, h⟩

theorem dropShape?_mark {mark : Char} (h : mark ≠ 'd') {shape cs rest : List Char} :
    dropShape? (mark :: shape) cs = some rest ↔
      ∃ cs', cs = mark :: cs' ∧ dropShape? shape cs' = some rest := by
  cases cs with
  | nil => simp [dropShape?]
  | cons c cs =>
      have itself : (if mark == 'd' then isDigit c else c == mark) = (c == mark) :=
        if_neg (by simpa using h)
      rw [dropShape?, itself, Option.ite_none_right_eq_some, beq_iff_eq]
      constructor
      · rintro ⟨rfl, found⟩
        exact ⟨cs, rfl, found⟩
      · rintro ⟨cs', text, found⟩
        obtain ⟨rfl, rfl⟩ := List.cons.inj text
        exact ⟨rfl, found⟩

theorem dropShape?_nil {cs rest : List Char} : dropShape? [] cs = some rest ↔ cs = rest :=
  Option.some_inj

/-- Two digits, a mark and two digits. -/
theorem dropShape?_pair {mark : Char} (h : mark ≠ 'd') {shape cs rest : List Char} :
    dropShape? ('d' :: 'd' :: mark :: 'd' :: 'd' :: shape) cs = some rest ↔
      ∃ (a b : Group 2) (cs' : List Char), cs = a.digits ++ mark :: (b.digits ++ cs') ∧
        dropShape? shape cs' = some rest := by
  have pair (tail : List Char) : 'd' :: 'd' :: tail = List.replicate 2 'd' ++ tail := rfl
  simp only [pair, dropShape?_digits, dropShape?_mark h]
  constructor
  · rintro ⟨a, _, rfl, _, rfl, b, cs', rfl, found⟩
    exact ⟨a, b, cs', rfl, found⟩
  · rintro ⟨a, b, cs', rfl, found⟩
    exact ⟨a, _, rfl, _, rfl, b, cs', rfl, found⟩

theorem dropShape?_offset {cs rest : List Char} :
    dropShape? "dd:dd".toList cs = some rest ↔
      ∃ h m : Group 2, cs = h.digits ++ ':' :: (m.digits ++ rest) := by
  have shape : "dd:dd".toList = 'd' :: 'd' :: ':' :: 'd' :: 'd' :: [] := rfl
  simp only [shape, dropShape?_pair (show ':' ≠ 'd' by decide), dropShape?_nil,
    exists_eq_right]

theorem dropShape?_clock {cs rest : List Char} :
    dropShape? "dd:dd:dd".toList cs = some rest ↔
      ∃ h m s : Group 2, cs = h.digits ++ ':' :: (m.digits ++ ':' :: (s.digits ++ rest)) := by
  have shape : "dd:dd:dd".toList =
      'd' :: 'd' :: ':' :: 'd' :: 'd' :: ':' :: (List.replicate 2 'd' ++ []) := rfl
  have colon : ':' ≠ 'd' := by decide
  simp only [shape, dropShape?_pair colon, dropShape?_mark colon, dropShape?_digits, dropShape?_nil]
  constructor
  · rintro ⟨h, m, _, rfl, _, rfl, s, _, rfl, rfl⟩
    exact ⟨h, m, s, rfl⟩
  · rintro ⟨h, m, s, rfl⟩
    exact ⟨h, m, _, rfl, _, rfl, s, _, rfl, rfl⟩

theorem dropShape?_date {cs rest : List Char} :
    dropShape? "dddd-dd-dd".toList cs = some rest ↔
      ∃ (y : Group 4) (m d : Group 2),
        cs = y.digits ++ '-' :: (m.digits ++ '-' :: (d.digits ++ rest)) := by
  have shape : "dddd-dd-dd".toList =
      List.replicate 4 'd' ++ '-' :: 'd' :: 'd' :: '-' :: 'd' :: 'd' :: [] := rfl
  have hyphen : '-' ≠ 'd' := by decide
  simp only [shape, dropShape?_pair hyphen, dropShape?_mark hyphen, dropShape?_digits,
    dropShape?_nil]
  constructor
  · rintro ⟨y, _, rfl, _, rfl, m, d, _, rfl, rfl⟩
    exact ⟨y, m, d, rfl⟩
  · rintro ⟨y, m, d, rfl⟩
    exact ⟨y, _, rfl, _, rfl, m, d, _, rfl, rfl⟩

end Text

namespace Value

open Text Calendar

/-! ## Texts of that form -/

theorem isZone_iff {cs : List Char} :
    isZone cs = true ↔
      ∃ (zone : ZoneGroups) (ending : List Char), isLineEnd ending = true ∧
        cs = zone.text ++ ending := by
  constructor
  · intro h
    unfold isZone at h
    obtain h | h := (Bool.or_eq_true _ _).mp h
    · exact ⟨.none, cs, h, rfl⟩
    · split at h
      next ending _ => exact ⟨.zulu, ending, h, rfl⟩
      next rest _ =>
        obtain ⟨ending, found, hend⟩ := (Option.any_eq_true _ _).mp h
        obtain ⟨hours, minutes, rfl⟩ := dropShape?_offset.mp found
        exact ⟨.clock false hours minutes, ending, hend, by simp [ZoneGroups.text]⟩
      next rest _ =>
        obtain ⟨ending, found, hend⟩ := (Option.any_eq_true _ _).mp h
        obtain ⟨hours, minutes, rfl⟩ := dropShape?_offset.mp found
        exact ⟨.clock true hours minutes, ending, hend, by simp [ZoneGroups.text]⟩
      next => cases h
  · rintro ⟨zone, ending, h, rfl⟩
    unfold isZone
    cases zone with
    | none => rw [ZoneGroups.text, List.nil_append, h, Bool.true_or]
    | zulu => exact (Bool.or_eq_true _ _).mpr (.inr h)
    | clock behind hours minutes =>
        have found : (dropShape? "dd:dd".toList
            (hours.digits ++ ':' :: minutes.digits ++ ending)).any isLineEnd = true := by
          rw [(@dropShape?_offset _ ending).mpr ⟨hours, minutes, by simp⟩]
          exact h
        cases behind <;> exact (Bool.or_eq_true _ _).mpr (.inr found)

/-- What may stand between date and time. -/
def Divides (c : Char) : Prop :=
  c = 'T' ∨ isBlank c = true

/-- A text looks like a time stamp when it is the text of its groups, but for a line end. -/
theorem isStampText_iff {s : String} :
    isStampText s = true ↔
      ∃ (g : Groups) (between : Char) (ending : List Char), Divides between ∧
        isLineEnd ending = true ∧ s.toList = g.text between ++ ending := by
  constructor
  · intro h
    unfold isStampText at h
    split at h
    next between rest hdate =>
      obtain ⟨divides, h⟩ := (Bool.and_eq_true _ _).mp h
      obtain ⟨zoneText, hclock, hzone⟩ := (Option.any_eq_true _ _).mp h
      obtain ⟨y, m, d, htext⟩ := dropShape?_date.mp hdate
      obtain ⟨hh, mm, ss, rfl⟩ := dropShape?_clock.mp hclock
      obtain ⟨zone, ending, hend, rfl⟩ := isZone_iff.mp hzone
      refine ⟨⟨y, m, d, hh, mm, ss, zone⟩, between, ending, ?_, hend, ?_⟩
      · simpa [Divides] using divides
      · simp [htext, Groups.text, Groups.dateText, Groups.clockText]
    next => cases h
  · rintro ⟨g, between, ending, divides, hend, htext⟩
    have hdate : dropShape? "dddd-dd-dd".toList s.toList =
        some (between :: (g.clockText ++ (g.zone.text ++ ending))) :=
      dropShape?_date.mpr ⟨g.year, g.month, g.day, by simp [htext, Groups.text, Groups.dateText]⟩
    have hclock : dropShape? "dd:dd:dd".toList (g.clockText ++ (g.zone.text ++ ending)) =
        some (g.zone.text ++ ending) :=
      dropShape?_clock.mpr ⟨g.hour, g.minute, g.second, by simp [Groups.clockText]⟩
    have hzone : isZone (g.zone.text ++ ending) = true := isZone_iff.mpr ⟨_, _, hend, rfl⟩
    rw [isStampText, hdate]
    refine (Bool.and_eq_true _ _).mpr ⟨by simpa [Divides] using divides, ?_⟩
    rw [hclock]
    exact hzone

/-! ## Reading them -/

/-- The characters of a zone. -/
theorem mem_zone {zone : ZoneGroups} {c : Char} (h : c ∈ zone.text) :
    isDigit c = true ∨ c ∈ ['Z', '+', '-', ':'] := by
  cases zone with
  | none => cases h
  | zulu => simp_all [ZoneGroups.text]
  | clock behind hours minutes =>
      simp only [ZoneGroups.text, List.mem_append, List.mem_cons] at h
      rcases h with rfl | h | rfl | h
      · cases behind <;> simp
      · exact .inl (hours.isDigit c h)
      · simp
      · exact .inl (minutes.isDigit c h)

theorem mem_dateText {g : Groups} {c : Char} (h : c ∈ g.dateText) : isDigit c = true ∨ c = '-' := by
  simp only [Groups.dateText, List.mem_append, List.mem_cons] at h
  rcases h with h | rfl | h | rfl | h
  · exact .inl (g.year.isDigit c h)
  · exact .inr rfl
  · exact .inl (g.month.isDigit c h)
  · exact .inr rfl
  · exact .inl (g.day.isDigit c h)

theorem blank_not_mem_dateText (g : Groups) : ' ' ∉ g.dateText := fun h => by
  rcases mem_dateText h with digit | mark
  · exact absurd digit (by decide)
  · exact absurd mark (by decide)

/-- A blank between date and time becomes a `T`, and nothing else changes. -/
theorem exists_between (g : Groups) (between : Char) {ending : List Char}
    (hend : isLineEnd ending = true) :
    ∃ between',
      replaceFirst [' '] ['T'] (g.text between ++ ending) = g.text between' ++ ending := by
  have split (b : Char) : g.text b ++ ending =
      g.dateText ++ b :: (g.clockText ++ (g.zone.text ++ ending)) := by
    simp [Groups.text]
  by_cases blank : between = ' '
  · subst blank
    refine ⟨'T', ?_⟩
    rw [split, replaceFirst_append (blank_not_mem_dateText g), split]
    rfl
  · refine ⟨between, replaceFirst_of_not_mem ?_⟩
    have noBlank : ∀ c ∈ ending, c ≠ ' ' := by
      obtain rfl | rfl := isLineEnd_iff.mp hend <;> simp
    rw [split, List.mem_append, List.mem_cons, List.mem_append, List.mem_append]
    rintro (date | here | clock | zone | last)
    · exact blank_not_mem_dateText g date
    · exact blank here.symm
    · exact absurd (Groups.mem_clockText clock) (by decide)
    · exact absurd (mem_zone zone) (by decide)
    · exact noBlank ' ' last rfl

theorem readStamp?_of_last {s : String} {front : List Char} {c : Char}
    (h : replaceFirst [' '] ['T'] s.toList = front ++ [c]) (notZulu : c ≠ 'Z') :
    readStamp? s = Iso.readStamp? (String.ofList (front ++ [c])) := by
  unfold readStamp?
  dsimp only
  rw [h, List.reverse_append, List.reverse_singleton, List.singleton_append]
  split
  next hz => exact absurd (List.cons.inj hz).1 notZulu
  next => rfl

theorem readStamp?_of_zulu {s : String} {front : List Char}
    (h : replaceFirst [' '] ['T'] s.toList = front ++ ['Z']) :
    readStamp? s = Iso.readStamp? (String.ofList (front ++ "+00:00".toList)) := by
  unfold readStamp?
  dsimp only
  rw [h, List.reverse_append, List.reverse_singleton, List.singleton_append]
  change Iso.readStamp? (String.ofList (front.reverse.reverse ++ _)) = _
  rw [List.reverse_reverse]

/-- Only the zone `Z` ends in one. -/
theorem exists_last (g : Groups) (between : Char) {ending : List Char}
    (hend : isLineEnd ending = true) (notZulu : g.zone = .zulu → ending ≠ []) :
    ∃ front c, g.text between ++ ending = front ++ [c] ∧ c ≠ 'Z' := by
  have notZ {c : Char} (digit : isDigit c = true) : c ≠ 'Z' := by
    rintro rfl
    exact absurd digit (by decide)
  obtain rfl | rfl := isLineEnd_iff.mp hend
  · cases hzone : g.zone with
    | none =>
        obtain ⟨a, b, pair, -, digit⟩ := g.second.exists_pair
        exact ⟨g.dateText ++ between :: (g.hour.digits ++ ':' :: (g.minute.digits ++ [':', a])), b,
          by simp [Groups.text, Groups.clockText, hzone, ZoneGroups.text, pair], notZ digit⟩
    | zulu => exact absurd rfl (notZulu hzone)
    | clock behind hours minutes =>
        obtain ⟨a, b, pair, -, digit⟩ := minutes.exists_pair
        exact ⟨g.dateText ++ between :: (g.clockText ++
            (if behind then '-' else '+') :: (hours.digits ++ [':', a])), b,
          by simp [Groups.text, hzone, ZoneGroups.text, pair], notZ digit⟩
  · exact ⟨g.text between, '\n', rfl, by decide⟩

/-- A text that looks like a stamp is read as the stamp of its groups, if no line end follows. -/
theorem readStamp?_text {g : Groups} {between : Char} {ending : List Char}
    (hend : isLineEnd ending = true) {s : String} (hs : s.toList = g.text between ++ ending) :
    readStamp? s = if ending.isEmpty then g.stamp? else none := by
  obtain ⟨between', replaced⟩ := exists_between g between hend
  rw [← hs] at replaced
  by_cases zulu : g.zone = .zulu ∧ ending = []
  · -- Zeros are read where the `Z` stands.
    obtain ⟨hzone, rfl⟩ := zulu
    have last : g.text between' ++ [] = (g.dateText ++ between' :: g.clockText) ++ ['Z'] := by
      simp [Groups.text, hzone, ZoneGroups.text]
    let respelled : Groups := { g with zone := .clock false (.ofNat 2 0) (.ofNat 2 0) }
    have zeros : (g.dateText ++ between' :: g.clockText) ++ "+00:00".toList =
        respelled.text between' ++ [] := by
      rw [List.append_assoc, List.append_nil]
      rfl
    have same : respelled.stamp? = g.stamp? := by
      unfold Groups.stamp? Groups.timeOn?
      rw [hzone]
      rfl
    rw [readStamp?_of_zulu (replaced.trans last), zeros, Groups.readStamp?_text _ _ hend, same]
  · obtain ⟨front, c, last, notZulu⟩ :=
      exists_last g between' hend fun hzone none => zulu ⟨hzone, none⟩
    rw [readStamp?_of_last (replaced.trans last) notZulu, ← last, Groups.readStamp?_text g _ hend]

end Value

end Toolbar
