/-
# `Toolbar.Proofs.Template.Suffix` — methods that do not apply

A method is left out when the value has none of that name or when it fails, and the value stands
alone, as it would without a suffix.  There is one exception.  A method that wants a stamp is called
on the stamp that a text denotes, and it is this stamp that stands alone then:

    value                          method that does not apply    what stands there
    a text that denotes a stamp    `get…`, `toLocale…`           the display of the stamp
    a text that denotes a stamp    any other                     the text
    any other                      any                           the display of the value

The display of a stamp has a point in it, before the milliseconds, and a text that looks like a
stamp has none (`point_not_mem_of_isStampText`).  So in the exceptional case the text is another one
than without the suffix, and `replacement_inapplicable` is exact.
-/
import Toolbar.Template.Resolve

namespace Toolbar

open Text

/-! ## Texts that look like stamps have no point -/

/-- A character that is no digit and not in a shape comes behind what has the shape. -/
theorem Text.mem_of_dropShape? {c : Char} (hdigit : isDigit c = false) {shape : List Char}
    (hshape : c ∉ shape) {cs rest : List Char} (h : dropShape? shape cs = some rest) (hc : c ∈ cs) :
    c ∈ rest := by
  induction shape generalizing cs with
  | nil =>
      cases h
      exact hc
  | cons p shape ih =>
      obtain ⟨hp, hshape⟩ := List.ne_and_not_mem_of_not_mem_cons hshape
      cases cs with
      | nil => cases h
      | cons c' cs =>
          rw [dropShape?, Option.ite_none_right_eq_some] at h
          obtain ⟨hfits, h⟩ := h
          rcases List.mem_cons.mp hc with rfl | hc
          · -- The character itself fits no place of the shape.
            by_cases hd : (p == 'd') = true
            · rw [if_pos hd, hdigit] at hfits
              cases hfits
            · rw [if_neg hd] at hfits
              exact absurd (beq_iff_eq.mp hfits) hp
          · exact ih hshape h hc

namespace Value

theorem point_not_mem_of_isLineEnd {cs : List Char} (h : isLineEnd cs = true) : '.' ∉ cs := by
  unfold isLineEnd at h
  split at h
  · exact List.not_mem_nil
  · decide
  · cases h

theorem point_not_mem_of_isZone {cs : List Char} (h : isZone cs = true) : '.' ∉ cs := by
  have offset : ∀ rest : List Char, (dropShape? "dd:dd".toList rest).any isLineEnd = true →
      '.' ∉ rest := by
    intro rest hrest hpoint
    obtain ⟨tail, htail, hend⟩ := (Option.any_eq_true _ _).mp hrest
    exact point_not_mem_of_isLineEnd hend
      (mem_of_dropShape? (by decide) (by decide) htail hpoint)
  rcases Bool.or_eq_true_iff.mp h with h | h
  · exact point_not_mem_of_isLineEnd h
  · split at h
    · exact List.not_mem_cons_of_ne_of_not_mem (by decide) (point_not_mem_of_isLineEnd h)
    · exact List.not_mem_cons_of_ne_of_not_mem (by decide) (offset _ h)
    · exact List.not_mem_cons_of_ne_of_not_mem (by decide) (offset _ h)
    · cases h

theorem point_not_mem_of_isStampText {s : String} (h : isStampText s = true) : '.' ∉ s.toList := by
  intro hpoint
  unfold isStampText at h
  split at h
  next c rest hdate =>
    obtain ⟨hbetween, htime⟩ := Bool.and_eq_true_iff.mp h
    obtain ⟨zone, hzone, hisZone⟩ := (Option.any_eq_true _ _).mp htime
    have hbehind := mem_of_dropShape? (by decide) (by decide) hdate hpoint
    rcases List.mem_cons.mp hbehind with rfl | hrest
    · revert hbetween
      decide
    · exact point_not_mem_of_isZone hisZone
        (mem_of_dropShape? (by decide) (by decide) hzone hrest)
  next => cases h

end Value

theorem Stamp.point_mem_display (t : Stamp) : '.' ∈ t.display.toList := by
  simp [Stamp.display, Stamp.milliText]

namespace Template

/-! ## The value that a method is called on -/

/-- The stamp that a method is called on in place of a text. -/
def stampFor? (method : List Char) : Value → Option Stamp
  | .text s =>
      if Value.isStampText s && stampMethods.any (startsWith · method) then Value.readStamp? s
      else none
  | _ => none

theorem subject_eq (method : List Char) (v : Value) :
    subject method v = ((stampFor? method v).map .stamp).getD v := by
  cases v with
  | text s =>
      by_cases h : (Value.isStampText s && stampMethods.any (startsWith · method)) = true
      · have hstamp : Value.isStampText s = true := (Bool.and_eq_true_iff.mp h).1
        rw [subject, stampFor?, Value.looksLikeStamp, if_pos h, if_pos h, Value.coerce,
          if_pos hstamp]
      · rw [subject, stampFor?, Value.looksLikeStamp, if_neg h, if_neg h]
        rfl
  | _ => rfl

/-- The stamp in place of a text is displayed in another way. -/
theorem display_stampFor?_ne {method : List Char} {v : Value} {st : Stamp}
    (h : stampFor? method v = some st) : v.display ≠ .ok st.display := by
  cases v with
  | text s =>
      simp only [stampFor?] at h
      split at h
      next hand =>
        have hstamp : Value.isStampText s = true := (Bool.and_eq_true_iff.mp hand).1
        intro hsame
        have htext : s = st.display := Except.ok.inj hsame
        exact Value.point_not_mem_of_isStampText hstamp (htext ▸ st.point_mem_display)
      next => cases h
  | _ => cases h

/-- A token without its suffix. -/
def bare (t : Token) : Token :=
  ⟨t.path, none, none⟩

/-- **A method that does not apply is left out**, unless it was to be called on a stamp in place of
a text: then the stamp is displayed, and this is never the text itself. -/
theorem replacement_inapplicable {t : Token} {method : List Char} (hmethod : t.method = some method)
    (known : Method.isKnown (String.ofList method) = true) {v : Value}
    (inapplicable : ∀ r, Method.call? (subject method v) (String.ofList method)
      (Args.values (t.args.getD [])) ≠ some (.ok r)) :
    (replacement t v = replacement (bare t) v ↔ stampFor? method v = none) ∧
      ∀ st, stampFor? method v = some st → replacement t v = .ok st.display := by
  have hreplacement : replacement t v = (subject method v).display := by
    simp only [replacement, hmethod, known, if_true]
  have hstamp : ∀ st, stampFor? method v = some st → replacement t v = .ok st.display := by
    intro st hst
    rw [hreplacement, subject_eq, hst]
    rfl
  refine ⟨?_, hstamp⟩
  constructor
  · intro hsame
    cases hst : stampFor? method v with
    | none => rfl
    | some st =>
        -- The stamp stands there, and it is not displayed as the text is.
        have hbare : v.display = .ok st.display := hsame.symm.trans (hstamp st hst)
        exact absurd hbare (display_stampFor?_ne hst)
  · intro hnone
    rw [hreplacement, subject_eq, hnone]
    rfl

/-- A reference to a year, with an argument too many. -/
def yearOf : Token :=
  ⟨"createdon".toList, some "getFullYear".toList, some "1".toList⟩

/-- The stamp is displayed where the text would stand without the suffix. -/
theorem yearOf_inapplicable :
    replacement yearOf (.text "2025-06-02T01:02:03Z") = .ok "2025-06-02T01:02:03.000Z" ∧
      replacement yearOf (.text "2025-06-02T01:02:03Z") ≠
        replacement (bare yearOf) (.text "2025-06-02T01:02:03Z") := by
  let st : Stamp := ⟨⟨2025, 6, 2, by decide⟩, 1, 2, 3, 0, some 0, by decide⟩
  have hst : stampFor? "getFullYear".toList (.text "2025-06-02T01:02:03Z") = some st := by
    decide +kernel
  obtain ⟨hiff, hstamp⟩ := replacement_inapplicable (t := yearOf) rfl (by decide +kernel)
    (v := .text "2025-06-02T01:02:03Z") fun r hr => by
      rw [subject_eq, hst] at hr
      cases hr
  constructor
  · rw [hstamp st hst]
    exact congrArg Except.ok (by decide +kernel)
  · intro hsame
    rw [hiff.mp hsame] at hst
    cases hst

end Template

end Toolbar
