/-
# `Toolbar.Fault` — why an operation on values has no result

A fault is a cause.  Its wording, for the causes whose text is ever shown, is `Fault.message`.
Whatever the cause, an operation in two steps has a result when both steps have one.
-/

namespace Toolbar

/-- Why an operation on values has no result. -/
inductive Fault where
  /-- A value of a kind that the operation cannot use, or a wrong count of arguments. -/
  | unsuitable
  /-- A text or number that denotes no number of the kind asked for. -/
  | malformed
  /-- An integer with more digits than a text may have, or such a text. -/
  | tooManyDigits
  /-- A number or date outside the range of its kind. -/
  | outOfRange
  /-- A radix for which there are no digits. -/
  | radix
  /-- A number that is not finite where a text of the record format is asked for. -/
  | notFinite
  /-- A value without a text in the record format, with the name of its kind. -/
  | noTextForm (kind : String)
  /-- A value that is no record where a field is read. -/
  | noRecord
  /-- A chain of lookups without a lookup. -/
  | emptyChain
  /-- A failure of that kind of something outside of the bar. -/
  | foreign (kind : String)
deriving DecidableEq, Repr

namespace Fault

/-- The wording of a fault. -/
def message : Fault → String
  | unsuitable => "unsuitable value"
  | malformed => "not a number"
  | tooManyDigits =>
      "Exceeds the limit (4300 digits) for integer string conversion; "
        ++ "use sys.set_int_max_str_digits() to increase the limit"
  | outOfRange => "out of range"
  | radix => "radix must be between 2 and 36"
  | notFinite => "Out of range float values are not JSON compliant"
  | noTextForm kind => "Unsupported type: " ++ kind
  | noRecord => "not a record"
  | emptyChain => "lookup chain must not be empty"
  | foreign kind => kind

end Fault

theorem bind_eq_ok {ε α β : Type} {x : Except ε α} {f : α → Except ε β} {b : β} :
    (x >>= f) = .ok b ↔ ∃ a, x = .ok a ∧ f a = .ok b := by
  cases x with
  | error e => exact ⟨fun h => (nomatch h), fun ⟨_, h, _⟩ => nomatch h⟩
  | ok a => exact ⟨fun h => ⟨a, rfl, h⟩, fun ⟨_, h, hf⟩ => by cases h; exact hf⟩

end Toolbar
