/-
# `Toolbar.Proofs.Expr.Instants` — three views of an instant

Two time stamps can be compared as stamps, by their milliseconds since 1970, and by their texts in
universal time.  For stamps that texts denote, both with an offset or both without, all three see
the same order: that of the seconds (`instants_agree`).
-/
import Mathlib.Data.String.Basic
import Toolbar.Expr.Eval
import Toolbar.Proofs.Calendar.Instant
import Toolbar.Proofs.Value.Stamped

namespace Toolbar

namespace Expr

open Value

/-! ## Expressions on stamps -/

section Eval

variable {s : Scope} {p q : String} {t t' : Stamp}

theorem reach_stamp (h : s.field p = .stamp t) (path : String) :
    reach s (.field p) path = .ok (some (.stamp t)) := by
  rw [reach, h]
  rfl

/-- A method of a field is called without arguments. -/
theorem eval_method (h : s.field p = .stamp t) {name : String} {r : Method.Result}
    (found : Method.call? (.stamp t) name [] = some r) (path : String) :
    eval s (.call (.field p) name []) path = lift r := by
  unfold eval
  rw [reach, reach_stamp h]
  simp only [reachAll, callMethod, bind, Except.bind, found]
  cases r <;> rfl

section Two

variable (hp : s.field p = .stamp t) (hq : s.field q = .stamp t') (path : String)
include hp hq

theorem eval_compare {order : Ordering} (h : t.compare? t' = some order) (c : Comparison) :
    eval s (.binary (.field p) (.compare c) (.field q)) path = .ok (.bool (c.holds order)) := by
  unfold eval
  rw [reach, reach_stamp hp]
  simp only [reach_stamp hq, bind, Except.bind, Option.getD_some, compareValues, h]
  rfl

theorem eval_strictEq :
    eval s (.binary (.field p) .strictEq (.field q)) path = .ok (.bool (t.sameInstant t')) := by
  unfold eval
  rw [reach, reach_stamp hp]
  simp only [reach_stamp hq]
  rfl

theorem eval_looseEq :
    eval s (.binary (.field p) .looseEq (.field q)) path = .ok (.bool (t.sameInstant t')) := by
  unfold eval
  rw [reach, reach_stamp hp]
  simp only [reach_stamp hq]
  rfl

end Two

end Eval

/-! ## The three views -/

/-- The milliseconds since 1970 of a field. -/
def timeOf (p : String) : Expr :=
  .call (.field p) "getTime" []

/-- The text of a field in universal time. -/
def isoOf (p : String) : Expr :=
  .call (.field p) "toISOString" []

section Stamps

variable {s : Scope} {p : String} {t : Stamp}

theorem eval_timeOf (h : s.field p = .stamp t) (whole : t.micro = 0) (path : String) :
    eval s (timeOf p) path = .ok (.int (1000 * t.secondsSince1970)) := by
  have called : Method.call? (.stamp t) "getTime" [] = some ((Method.epochMillis t).map .int) := rfl
  rw [timeOf, eval_method h called, Stamp.epochMillis_eq whole]
  rfl

theorem eval_isoOf (h : s.field p = .stamp t) {u : Stamp} (universal : t.toUniversal? = some u)
    (path : String) : eval s (isoOf p) path = .ok (.text u.display) := by
  have called : Method.call? (.stamp t) "toISOString" [] =
      some ((Method.isoInstant t).map .text) := rfl
  rw [isoOf, eval_method h called, Stamp.isoInstant_eq universal]
  rfl

end Stamps

/-- Two fields with time stamps, both with an offset or both without, are compared alike as stamps,
by their milliseconds since 1970 and by their texts in universal time; and the milliseconds are
those of the calendar. -/
theorem instants_agree {a b p q : String} {t t' : Stamp} {s : Scope}
    (ha : coerce (.text a) = .stamp t) (hb : coerce (.text b) = .stamp t')
    (kind : t.offset.isSome = t'.offset.isSome) (inside : t.HasUniversal)
    (inside' : t'.HasUniversal) (hp : s.field p = coerce (.text a))
    (hq : s.field q = coerce (.text b)) (path : String) :
    ∃ (m m' : Int) (i i' : String),
      (eval s (timeOf p) path = .ok (.int m) ∧ m = 1000 * t.secondsSince1970) ∧
      (eval s (timeOf q) path = .ok (.int m') ∧ m' = 1000 * t'.secondsSince1970) ∧
      eval s (isoOf p) path = .ok (.text i) ∧
      eval s (isoOf q) path = .ok (.text i') ∧
      (eval s (.binary (.field p) (.compare .lt) (.field q)) path = .ok (.bool (m < m')) ∧
        (m < m' ↔ i < i')) ∧
      eval s (.binary (.field p) .strictEq (.field q)) path = .ok (.bool (m = m')) ∧
      eval s (.binary (.field p) .looseEq (.field q)) path = .ok (.bool (m = m')) ∧
      (m = m' ↔ i = i') := by
  have whole := micro_of_coerce ha
  have whole' := micro_of_coerce hb
  rw [ha] at hp
  rw [hb] at hq
  obtain ⟨u, found, offset, micro, seconds⟩ := Stamp.exists_toUniversal? inside
  obtain ⟨u', found', offset', micro', seconds'⟩ := Stamp.exists_toUniversal? inside'
  rw [Stamp.universalSeconds_eq] at seconds seconds'
  rw [whole] at micro
  rw [whole'] at micro'
  have lessText : u.display < u'.display ↔ t.secondsSince1970 < t'.secondsSince1970 := by
    rw [Stamp.display, Stamp.display, String.lt_iff_toList_lt, String.toList_ofList,
      String.toList_ofList, Stamp.milliText_lt_iff offset offset' micro micro', seconds, seconds']
    omega
  have sameText : u.display = u'.display ↔ t.secondsSince1970 = t'.secondsSince1970 := by
    rw [Stamp.display, Stamp.display, String.ofList_inj,
      Stamp.milliText_eq_iff offset offset' micro micro', seconds, seconds']
    omega
  have same : decide (1000 * t.secondsSince1970 = 1000 * t'.secondsSince1970) =
      t.sameInstant t' := by
    rw [Stamp.sameInstant_eq whole whole' kind]
    exact decide_eq_decide.mpr (by omega)
  have less : Comparison.lt.holds (compare t.secondsSince1970 t'.secondsSince1970) =
      decide (1000 * t.secondsSince1970 < 1000 * t'.secondsSince1970) := by
    rw [Comparison.holds, Bool.eq_iff_iff, beq_iff_eq, compare_lt_iff_lt, decide_eq_true_iff]
    omega
  refine ⟨_, _, u.display, u'.display, ⟨eval_timeOf hp whole path, rfl⟩,
    ⟨eval_timeOf hq whole' path, rfl⟩, eval_isoOf hp found path, eval_isoOf hq found' path,
    ⟨?_, ?_⟩, ?_, ?_, ?_⟩
  · rw [eval_compare hp hq path (Stamp.compare?_eq whole whole' kind), less]
  · rw [lessText]
    omega
  · rw [same, eval_strictEq hp hq]
  · rw [same, eval_looseEq hp hq]
  · rw [sameText]
    omega

/-- Half an hour before March 1968 in universal time, written in March, comes before a quarter of an
hour before March, written on the leap day. -/
theorem leapEve_compared :
    let s : Scope := {
      data := [("a", coerce (.text "1968-03-01T00:30:00+01:00")),
        ("b", coerce (.text "1968-02-29T22:45:00-01:00"))] }
    eval s (timeOf "a") "$" = .ok (.int (-57976200000)) ∧
      eval s (.binary (.field "a") (.compare .lt) (.field "b")) "$" = .ok (.bool true) ∧
      ∃ i i', eval s (isoOf "a") "$" = .ok (.text i) ∧ eval s (isoOf "b") "$" = .ok (.text i') ∧
        i < i' := by
  intro s
  have ha : coerce (.text "1968-03-01T00:30:00+01:00") =
      .stamp ⟨⟨1968, 3, 1, by decide⟩, 0, 30, 0, 0, some 3600, by decide⟩ := by rfl
  have hb : coerce (.text "1968-02-29T22:45:00-01:00") =
      .stamp ⟨⟨1968, 2, 29, by decide⟩, 22, 45, 0, 0, some (-3600), by decide⟩ := by rfl
  have seconds : Stamp.secondsSince1970
      ⟨⟨1968, 3, 1, by decide⟩, 0, 30, 0, 0, some 3600, by decide⟩ = -57976200 := by
    rw [Stamp.secondsSince1970, Date.daysSince1970_eq]
    decide
  have seconds' : Stamp.secondsSince1970
      ⟨⟨1968, 2, 29, by decide⟩, 22, 45, 0, 0, some (-3600), by decide⟩ = -57975300 := by
    rw [Stamp.secondsSince1970, Date.daysSince1970_eq]
    decide
  obtain ⟨m, m', i, i', ⟨time, hm⟩, ⟨-, hm'⟩, iso, iso', ⟨less, order⟩, -⟩ :=
    instants_agree (p := "a") (q := "b") (s := s) ha hb rfl
      ⟨⟨⟨1968, 2, 29, by decide⟩, 23, 30, 0, 0, some 0, by decide⟩, rfl, by decide⟩
      ⟨⟨⟨1968, 2, 29, by decide⟩, 23, 45, 0, 0, some 0, by decide⟩, rfl, by decide⟩ rfl rfl "$"
  rw [seconds] at hm
  rw [seconds'] at hm'
  have before : m < m' := by omega
  refine ⟨?_, ?_, i, i', iso, iso', order.mp before⟩
  · rw [time, hm]
    rfl
  · rw [less, decide_eq_true before]

end Expr

end Toolbar
