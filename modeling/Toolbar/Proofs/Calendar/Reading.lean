/-
# `Toolbar.Proofs.Calendar.Reading` — what the reader makes of a text with the form of a stamp

A text with the form of a time stamp is made of groups of digits, of any script, with marks between
them.  The reader finds the groups where they stand and takes the number of each; it denotes nothing
if a group has a digit that is not ASCII or if a line end follows (`readStamp?_text`).

    Group        so many digits
    ZoneGroups   nothing, `Z`, or a sign and two groups
    Groups       the groups of a date and a time, with a zone
-/
import Mathlib.Data.List.TakeWhile
import Toolbar.Proofs.Calendar.Places
import Toolbar.Proofs.Text.Spans
import Toolbar.Value.Coerce

namespace Toolbar.Calendar

open Text Iso

/-! ## Groups of digits -/

/-- So many digits, of any script. -/
structure Group (width : Nat) where
  digits : List Char
  count : digits.length = width
  isDigit : ∀ c ∈ digits, isDigit c = true

theorem isDigit_of_mem_places {width n : Nat} {c : Char} (h : c ∈ places width n) :
    isDigit c = true := by
  have digit : ∀ d < 10, isDigit d.digitChar = true := by decide
  induction width with
  | zero => cases h
  | succ width ih =>
      obtain rfl | h := List.mem_cons.mp h
      · exact digit _ (Nat.mod_lt _ (by decide))
      · exact ih h

namespace Group

variable {width : Nat}

/-- The number that the digits write, if they are ASCII digits. -/
def value? (g : Group width) : Option Nat :=
  (number? width 0 g.digits).map Prod.fst

/-- The last digits of a number. -/
def ofNat (width n : Nat) : Group width :=
  ⟨places width n, length_places width n, fun _ => isDigit_of_mem_places⟩

theorem value?_eq_some_iff {g : Group width} {n : Nat} :
    g.value? = some n ↔ n < 10 ^ width ∧ g.digits = places width n := by
  constructor
  · intro h
    obtain ⟨⟨m, rest⟩, read, rfl⟩ := Option.map_eq_some_iff.mp h
    obtain ⟨small, text⟩ := number?_eq_some_iff.mp read
    obtain ⟨whole, -⟩ := List.append_inj (text.symm.trans (List.append_nil _).symm)
      ((length_places ..).trans g.count.symm)
    exact ⟨small, whole.symm⟩
  · rintro ⟨small, text⟩
    have read : number? width 0 g.digits = some (n, []) :=
      number?_eq_some_iff.mpr ⟨small, by rw [text, List.append_nil]⟩
    rw [value?, read]
    rfl

/-- A group is read whole, whatever follows. -/
theorem number?_append (g : Group width) (rest : List Char) :
    number? width 0 (g.digits ++ rest) = g.value?.map fun n => (n, rest) := by
  apply Option.ext
  rintro ⟨n, rest'⟩
  rw [number?_eq_some_iff]
  constructor
  · rintro ⟨small, text⟩
    obtain ⟨same, rfl⟩ := List.append_inj text (g.count.trans (length_places ..).symm)
    rw [value?_eq_some_iff.mpr ⟨small, same⟩]
    rfl
  · intro h
    obtain ⟨m, read, pair⟩ := Option.map_eq_some_iff.mp h
    cases pair
    obtain ⟨small, text⟩ := value?_eq_some_iff.mp read
    exact ⟨small, by rw [text]⟩

theorem value?_ofNat {n : Nat} (small : n < 10 ^ width) : (ofNat width n).value? = some n :=
  value?_eq_some_iff.mpr ⟨small, rfl⟩

/-- A group with a value is that of a number. -/
theorem exists_fin {g : Group width} {n : Nat} (h : g.value? = some n) :
    ∃ k : Fin (10 ^ width), g = ofNat width k := by
  obtain ⟨small, text⟩ := value?_eq_some_iff.mp h
  refine ⟨⟨n, small⟩, ?_⟩
  cases g
  cases text
  rfl

theorem number?_self (g : Group width) :
    number? width 0 g.digits = g.value?.map fun n => (n, []) := by
  rw [← g.number?_append [], List.append_nil]

end Group

theorem Group.exists_pair (g : Group 2) :
    ∃ a b, g.digits = [a, b] ∧ Text.isDigit a = true ∧ Text.isDigit b = true := by
  obtain ⟨a, b, pair⟩ := List.length_eq_two.mp g.count
  exact ⟨a, b, pair, g.isDigit a (by simp [pair]), g.isDigit b (by simp [pair])⟩

theorem Group.append_ne_nil (g : Group 2) (rest : List Char) : g.digits ++ rest ≠ [] := by
  obtain ⟨a, b, pair, -⟩ := g.exists_pair
  rw [pair]
  exact List.cons_ne_nil _ _

/-! ## Clocks -/

theorem isLineEnd_iff {cs : List Char} : isLineEnd cs = true ↔ cs = [] ∨ cs = ['\n'] := by
  unfold isLineEnd
  split <;> simp_all

section Clock

variable (g : Group 2) (separated : Bool) (fields : Nat) (parts : List Nat)

/-- The last group of a clock; a line end behind it is left over. -/
theorem clockFrom?_last {ending : List Char} (h : isLineEnd ending = true) :
    clockFrom? separated (fields + 1) parts (g.digits ++ ending) =
      g.value?.bind fun n => clockFrom?.clock (parts ++ [n]) 0 ending.isEmpty := by
  rw [clockFrom?, g.number?_append]
  cases g.value? with
  | none => rfl
  | some n =>
      obtain rfl | rfl := isLineEnd_iff.mp h <;> rfl

/-- A group with a colon behind it. -/
theorem clockFrom?_colon {rest : List Char} (h : rest ≠ []) :
    clockFrom? true (fields + 1) parts (g.digits ++ ':' :: rest) =
      g.value?.bind fun n => clockFrom? true fields (parts ++ [n]) rest := by
  rw [clockFrom?, g.number?_append]
  cases g.value? with
  | none => rfl
  | some n =>
      obtain ⟨c, rest, rfl⟩ := List.exists_cons_of_ne_nil h
      simp

end Clock

/-- Hours, minutes and seconds. -/
theorem clock?_three (h m s : Group 2) {ending : List Char} (hend : isLineEnd ending = true) :
    clock? (h.digits ++ ':' :: (m.digits ++ ':' :: (s.digits ++ ending))) =
      h.value?.bind fun h => m.value?.bind fun m => s.value?.bind fun s =>
        some ⟨h, m, s, 0, ending.isEmpty⟩ := by
  rw [clock?, clockFrom?_colon _ _ _ (m.append_ne_nil _)]
  congr 1
  funext hour
  rw [clockFrom?_colon _ _ _ (s.append_ne_nil _)]
  congr 1
  funext minute
  rw [clockFrom?_last _ _ _ _ hend]
  rfl

/-- Hours and minutes. -/
theorem clock?_two (h m : Group 2) {ending : List Char} (hend : isLineEnd ending = true) :
    clock? (h.digits ++ ':' :: (m.digits ++ ending)) =
      h.value?.bind fun h => m.value?.bind fun m => some ⟨h, m, 0, 0, ending.isEmpty⟩ := by
  rw [clock?, clockFrom?_colon _ _ _ (m.append_ne_nil _)]
  congr 1
  funext hour
  rw [clockFrom?_last _ _ _ _ hend]
  rfl

/-! ## Zones -/

/-- The zone of a time stamp: nothing, `Z`, or a sign and two groups. -/
inductive ZoneGroups where
  | none
  | zulu
  | clock (behind : Bool) (hours minutes : Group 2)

namespace ZoneGroups

def text : ZoneGroups → List Char
  | none => []
  | zulu => ['Z']
  | clock behind hours minutes =>
      (if behind then '-' else '+') :: (hours.digits ++ ':' :: minutes.digits)

/-- The offset that a zone names, if its digits are ASCII digits. -/
def offset? : ZoneGroups → Option (Option Int)
  | none => some .none
  | zulu => some (some 0)
  | clock behind hours minutes =>
      hours.value?.bind fun h => minutes.value?.bind fun m =>
        let seconds : Int := (h * 3600 + m * 60 : Nat)
        some (some (if behind then -seconds else seconds))

end ZoneGroups

/-- A zone that is written begins where the reader looks for it, and a line end behind it is left
over. -/
theorem offset?_zone {zone : ZoneGroups} (written : zone ≠ .none) {ending : List Char}
    (hend : isLineEnd ending = true) :
    Iso.offset? (zone.text ++ ending) = if ending.isEmpty then zone.offset?.join else none := by
  cases zone with
  | none => exact absurd rfl written
  | zulu => obtain rfl | rfl := isLineEnd_iff.mp hend <;> rfl
  | clock behind h m =>
      have read := clock?_two h m hend
      cases behind <;>
      · simp only [ZoneGroups.text, Bool.false_eq_true, if_false, if_true, List.cons_append,
          List.append_assoc, Iso.offset?, ZoneGroups.offset?, read]
        cases h.value? <;> cases m.value? <;> cases ending <;> simp

theorem zone_begins {zone : ZoneGroups} (written : zone ≠ .none) :
    ∃ c rest, zone.text = c :: rest ∧ isOffsetStart c = true := by
  cases zone with
  | none => exact absurd rfl written
  | zulu => exact ⟨'Z', [], rfl, rfl⟩
  | clock behind h m => exact ⟨_, _, rfl, by cases behind <;> rfl⟩

/-- A zone that is written names an offset, or nothing. -/
theorem exists_offset? {zone : ZoneGroups} (written : zone ≠ .none) :
    ∃ o : Option Int, zone.offset? = o.map some := by
  cases zone with
  | none => exact absurd rfl written
  | zulu => exact ⟨some 0, rfl⟩
  | clock behind h m =>
      refine ⟨(ZoneGroups.clock behind h m).offset?.join, ?_⟩
      rw [ZoneGroups.offset?]
      cases h.value? <;> cases m.value? <;> rfl

/-- Digits and colons do not begin an offset. -/
theorem not_isOffsetStart {c : Char} (h : isDigit c = true ∨ c = ':') :
    isOffsetStart c = false := by
  by_contra starts
  have : c = '+' ∨ c = '-' ∨ c = 'Z' := by
    simp only [isOffsetStart, Bool.not_eq_false, Bool.or_eq_true, beq_iff_eq] at starts
    tauto
  obtain rfl | rfl | rfl := this <;> revert h <;> decide

/-! ## Date and time -/

/-- The groups of a time stamp. -/
structure Groups where
  year : Group 4
  month : Group 2
  day : Group 2
  hour : Group 2
  minute : Group 2
  second : Group 2
  zone : ZoneGroups

namespace Groups

def dateText (g : Groups) : List Char :=
  g.year.digits ++ '-' :: (g.month.digits ++ '-' :: g.day.digits)

def clockText (g : Groups) : List Char :=
  g.hour.digits ++ ':' :: (g.minute.digits ++ ':' :: g.second.digits)

/-- The text of the groups, with `between` between date and time. -/
def text (between : Char) (g : Groups) : List Char :=
  g.dateText ++ between :: (g.clockText ++ g.zone.text)

def date? (g : Groups) : Option Date :=
  g.year.value?.bind fun y => g.month.value?.bind fun m => g.day.value?.bind fun d => Date.of? y m d

/-- The time that the groups denote on a date. -/
def timeOn? (g : Groups) (d : Date) : Option Stamp :=
  g.hour.value?.bind fun h => g.minute.value?.bind fun m => g.second.value?.bind fun s =>
    g.zone.offset?.bind fun o => Stamp.of? d h m s 0 o

/-- The stamp that the groups denote. -/
def stamp? (g : Groups) : Option Stamp :=
  g.date?.bind g.timeOn?

/-- The characters of a clock. -/
theorem mem_clockText {g : Groups} {c : Char} (h : c ∈ g.clockText) :
    isDigit c = true ∨ c = ':' := by
  simp only [clockText, List.mem_append, List.mem_cons] at h
  rcases h with h | rfl | h | rfl | h
  · exact .inl (g.hour.isDigit c h)
  · exact .inr rfl
  · exact .inl (g.minute.isDigit c h)
  · exact .inr rfl
  · exact .inl (g.second.isDigit c h)

theorem clock?_text (g : Groups) {ending : List Char} (hend : isLineEnd ending = true) :
    clock? (g.clockText ++ ending) =
      g.hour.value?.bind fun h => g.minute.value?.bind fun m => g.second.value?.bind fun s =>
        some ⟨h, m, s, 0, ending.isEmpty⟩ := by
  rw [← clock?_three _ _ _ hend, clockText, List.append_assoc, List.cons_append, List.append_assoc,
    List.cons_append]

theorem timeOn?_text (g : Groups) (d : Date) {ending : List Char} (hend : isLineEnd ending = true) :
    Iso.timeOn? d (g.clockText ++ (g.zone.text ++ ending)) =
      if ending.isEmpty then g.timeOn? d else none := by
  have inside : ∀ c ∈ g.clockText, (!isOffsetStart c) = true := fun c hc => by
    rw [not_isOffsetStart (mem_clockText hc)]
    rfl
  unfold Iso.timeOn? timeOn?
  by_cases written : g.zone = .none
  · -- The line end counts as part of the clock then.
    have all : ∀ c ∈ g.clockText ++ ending, (!isOffsetStart c) = true := fun c hc => by
      obtain hc | hc := List.mem_append.mp hc
      · exact inside c hc
      · obtain rfl | rfl := isLineEnd_iff.mp hend
        · cases hc
        · rw [List.mem_singleton.mp hc]
          decide
    have taken := List.takeWhile_eq_self_iff.mpr all
    have dropped := List.dropWhile_eq_nil_iff.mpr all
    rw [written, ZoneGroups.text, List.nil_append, taken, dropped]
    dsimp only
    rw [clock?_text g hend]
    cases g.hour.value? <;> cases g.minute.value? <;> cases g.second.value? <;>
      cases ending <;> simp [ZoneGroups.offset?]
  · obtain ⟨c, rest, hzone, starts⟩ := zone_begins written
    have outside : (!isOffsetStart c) = false := by rw [starts]; rfl
    have read := offset?_zone written hend
    have body := @clock?_text g [] rfl
    rw [hzone, List.cons_append] at read ⊢
    rw [List.append_nil] at body
    rw [takeWhile_append_cons inside outside, dropWhile_append_cons inside outside]
    dsimp only
    obtain ⟨o, named⟩ := exists_offset? written
    rw [body, read, named]
    cases o <;> cases g.hour.value? <;> cases g.minute.value? <;> cases g.second.value? <;>
      cases ending <;> simp

theorem length_dateText (g : Groups) : g.dateText.length = 10 := by
  simp [dateText, g.year.count, g.month.count, g.day.count]

/-- The month begins with a digit, so it is no week. -/
theorem exists_month (g : Groups) : ∃ a b, g.month.digits = [a, b] ∧ a ≠ 'W' := by
  obtain ⟨a, b, pair, digit, -⟩ := g.month.exists_pair
  refine ⟨a, b, pair, ?_⟩
  rintro rfl
  exact absurd digit (by decide)

theorem readDate?_dateText (g : Groups) : readDate? g.dateText = g.date? := by
  obtain ⟨a, b, hmonth, noWeek⟩ := exists_month g
  have month := g.month.number?_append ('-' :: g.day.digits)
  unfold readDate? date? dateText
  rw [g.year.number?_append]
  rw [hmonth] at month ⊢
  cases g.year.value? with
  | none => rfl
  | some y =>
      simp only [Option.map_some, Option.bind_eq_bind, Option.bind_some, List.head?_cons,
        beq_self_eq_true, if_true, List.drop_one, List.tail_cons, List.cons_append,
        List.nil_append]
      split
      next h => exact absurd (List.cons.inj h).1 noWeek
      next =>
        rw [List.cons_append, List.cons_append, List.nil_append] at month
        rw [month]
        cases g.month.value? with
        | none => rfl
        | some m =>
            simp only [Option.map_some, Option.bind_some, after?, beq_self_eq_true, if_true,
              g.day.number?_self]
            cases g.day.value? <;> rfl

theorem dateLength_text (g : Groups) (between : Char) (rest : List Char) :
    dateLength (g.dateText ++ between :: rest) = 10 := by
  obtain ⟨a, b, hmonth, noWeek⟩ := exists_month g
  have long : (g.dateText ++ between :: rest).length ≠ 7 := by
    rw [List.length_append, length_dateText]
    omega
  have mark : (g.dateText ++ between :: rest)[4]? = some '-' := by
    simp [dateText, g.year.count]
  have month : (g.dateText ++ between :: rest)[5]? = some a := by
    simp [dateText, hmonth, List.getElem?_append, g.year.count]
  rw [dateLength, if_neg long, mark, month, if_pos (by decide), if_neg (by simpa using noWeek)]

/-- The reader takes the number of each group; a text with a line end denotes nothing. -/
theorem readStamp?_text (g : Groups) (between : Char) {ending : List Char}
    (hend : isLineEnd ending = true) :
    Iso.readStamp? (String.ofList (g.text between ++ ending)) =
      if ending.isEmpty then g.stamp? else none := by
  have written : g.text between ++ ending =
      g.dateText ++ between :: (g.clockText ++ (g.zone.text ++ ending)) := by
    simp [text]
  have date : (g.text between ++ ending).take 10 = g.dateText := by
    rw [written, ← g.length_dateText, List.take_left]
  have time : (g.text between ++ ending).drop (10 + 1) =
      g.clockText ++ (g.zone.text ++ ending) := by
    rw [written, ← g.length_dateText]
    simp
  have length : dateLength (g.text between ++ ending) = 10 := by
    rw [written, dateLength_text]
  unfold Iso.readStamp?
  dsimp only
  rw [String.toList_ofList, length, date, time, readDate?_dateText, stamp?]
  cases g.date? with
  | none => cases ending <;> rfl
  | some d =>
      simp only [Option.bind_eq_bind, Option.bind_some]
      split
      next nothing =>
        rw [clockText, List.append_assoc] at nothing
        exact absurd nothing (g.hour.append_ne_nil _)
      next => exact g.timeOn?_text d hend

end Groups

end Toolbar.Calendar
