/-
# `Toolbar.Proofs.Button.Hash` — which configurations have a hash

A list of configurations has a hash exactly when each of their fields has a canonical text.
Values of the calendar, numbers that are not finite and integers with too many digits have none,
wherever in a field they are.
-/
import Toolbar.Button.Config

namespace Toolbar

/-- Whether there is a result. -/
instance decidableExistsOk {ε α : Type} (x : Except ε α) : Decidable (∃ a, x = .ok a) :=
  match x with
  | .ok a => .isTrue ⟨a, rfl⟩
  | .error _ => .isFalse fun ⟨_, h⟩ => nomatch h

namespace Value

/-- A value has a canonical text. -/
def HasCanonical (v : Value) : Prop :=
  ∃ s, v.canonical = .ok s

instance (v : Value) : Decidable v.HasCanonical :=
  inferInstanceAs (Decidable (∃ s, v.canonical = .ok s))

theorem sequence_eq_ok {ts : List (Except Fault String)} :
    (∃ ss, sequence ts = .ok ss) ↔ ∀ t ∈ ts, ∃ s, t = .ok s := by
  induction ts with
  | nil => exact ⟨(fun _ t ht => nomatch ht), fun _ => ⟨[], rfl⟩⟩
  | cons t ts ih =>
      rw [List.forall_mem_cons, ← ih]
      cases t with
      | error f => exact ⟨(fun ⟨_, h⟩ => nomatch h), fun ⟨⟨_, h⟩, _⟩ => nomatch h⟩
      | ok s =>
          cases hts : sequence ts with
          | error f =>
              simp [sequence, hts, bind, Except.bind]
          | ok ss =>
              simp [sequence, hts, bind, Except.bind, pure, Except.pure]

theorem canonicalItems_eq_map (vs : List Value) : canonicalItems vs = vs.map canonical := by
  induction vs with
  | nil => rfl
  | cons v vs ih => rw [canonicalItems, ih, List.map_cons]

theorem canonicalFields_eq_map (fields : Fields) :
    canonicalFields fields = fields.map fun f => (f.1, f.2.canonical) := by
  induction fields with
  | nil => rfl
  | cons f fs ih => rw [canonicalFields, ih, List.map_cons]

theorem map_eq_ok {α β : Type} {f : α → β} {x : Except Fault α} :
    (∃ b, x.map f = .ok b) ↔ ∃ a, x = .ok a := by
  cases x with
  | error e => exact ⟨(fun ⟨_, h⟩ => nomatch h), fun ⟨_, h⟩ => nomatch h⟩
  | ok a => exact ⟨fun _ => ⟨a, rfl⟩, fun _ => ⟨f a, rfl⟩⟩

theorem mem_putKey {α : Type} {pair p : String × α} {ps : List (String × α)} :
    p ∈ putKey pair ps ↔ p = pair ∨ p ∈ ps := by
  induction ps with
  | nil => simp [putKey]
  | cons q qs ih =>
      rw [putKey]
      split
      · exact List.mem_cons
      · rw [List.mem_cons, ih, List.mem_cons, or_left_comm]

theorem mem_sortKeys {α : Type} {p : String × α} {pairs : List (String × α)} :
    p ∈ sortKeys pairs ↔ p ∈ pairs := by
  induction pairs with
  | nil => exact Iff.rfl
  | cons q qs ih => rw [sortKeys, List.foldr_cons, mem_putKey, ← sortKeys, ih, List.mem_cons]

/-- A list has a canonical text when its items have one. -/
theorem hasCanonical_list {vs : List Value} :
    (list vs).HasCanonical ↔ ∀ v ∈ vs, v.HasCanonical := by
  rw [HasCanonical, canonical, map_eq_ok, sequence_eq_ok, canonicalItems_eq_map,
    List.forall_mem_map]
  rfl

/-- A map has a canonical text when its values have one. -/
theorem hasCanonical_map {fields : Fields} :
    (map fields).HasCanonical ↔ ∀ f ∈ fields, f.2.HasCanonical := by
  rw [HasCanonical, canonical, map_eq_ok, sequence_eq_ok, List.forall_mem_map]
  simp only [mem_sortKeys, canonicalFields_eq_map, List.forall_mem_map, map_eq_ok]
  rfl

end Value

namespace Button.Config

/-- Configurations have a hash when each field has a canonical text. -/
theorem hash_eq_ok_iff {configs : List Config} :
    (∃ h, hash configs = .ok h) ↔ ∀ c ∈ configs, ∀ f ∈ c.fields, f.2.HasCanonical := by
  have hhash : (∃ h, hash configs = .ok h) ↔
      (Value.list (configs.map toValue)).HasCanonical := by
    rw [hash, hashOf, Value.HasCanonical]
    cases (Value.list (configs.map toValue)).canonical with
    | error e => exact ⟨(fun ⟨_, h⟩ => nomatch h), fun ⟨_, h⟩ => nomatch h⟩
    | ok s => exact ⟨fun _ => ⟨s, rfl⟩, fun _ => ⟨_, rfl⟩⟩
  rw [hhash, Value.hasCanonical_list, List.forall_mem_map]
  simp only [toValue, Value.hasCanonical_map]

end Button.Config

end Toolbar
