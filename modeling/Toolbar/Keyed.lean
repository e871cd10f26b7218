/-
# `Toolbar.Keyed` — lists of entries by key

Entries of a cache, keys of scopes and listeners of events are kept as lists of pairs.  An entry is
replaced by putting another one in front of those of the other keys.
-/

namespace Toolbar.Keyed

variable {κ β : Type} [BEq κ] [LawfulBEq κ]

/-- There is no entry of a key among those of the other keys. -/
theorem lookup_others_self (key : κ) (entries : List (κ × β)) :
    (entries.filter fun e => e.1 != key).lookup key = none := by
  induction entries with
  | nil => rfl
  | cons entry entries ih =>
      obtain ⟨k, value⟩ := entry
      rw [List.filter_cons]
      split
      next hk =>
        have hne : (key == k) = false := beq_eq_false_iff_ne.mpr fun he => by simp [he] at hk
        rw [List.lookup_cons, hne, ih]
      next => exact ih

/-- Another key has its entry there. -/
theorem lookup_others_of_ne {key k : κ} (h : k ≠ key) (entries : List (κ × β)) :
    (entries.filter fun e => e.1 != key).lookup k = entries.lookup k := by
  induction entries with
  | nil => rfl
  | cons entry entries ih =>
      obtain ⟨k', value⟩ := entry
      rw [List.filter_cons]
      split
      next => rw [List.lookup_cons, List.lookup_cons, ih]
      next hk =>
        have hkey : k' = key := by simpa using hk
        have hne : (k == k') = false := beq_eq_false_iff_ne.mpr fun he => h (he.trans hkey)
        rw [ih, List.lookup_cons, hne]

/-- Who has a key is found under it, if nobody else has it. -/
theorem find?_of_nodup {α : Type} {key : α → κ} {xs : List α} (nodup : (xs.map key).Nodup) {x : α}
    (hx : x ∈ xs) : xs.find? (fun y => key y == key x) = some x := by
  induction xs with
  | nil => cases hx
  | cons y ys ih =>
      obtain ⟨fresh, nodup⟩ := List.nodup_cons.mp nodup
      rcases List.mem_cons.mp hx with rfl | hx
      · exact List.find?_cons_of_pos (beq_self_eq_true _)
      · have hne : (key y == key x) = false :=
          beq_eq_false_iff_ne.mpr fun heq => fresh (heq ▸ List.mem_map_of_mem hx)
        rw [List.find?_cons]
        simp only [hne, ih nodup hx]

end Toolbar.Keyed
