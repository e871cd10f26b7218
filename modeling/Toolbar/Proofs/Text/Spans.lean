/-
# `Toolbar.Proofs.Text.Spans` — where the pieces of a text stand

A text is cut into pieces from the left: `cut` says whether a piece begins here and how long it is,
a piece that was found is passed as a whole, and what begins no piece is passed by itself.  Two
readers of the same text that cut it differently can be compared by where their pieces stand.

    cut_of_mem_spans    a span stands where a piece begins, of that length
    span_covers         where a piece can begin, there is a span that begins there or further left
    spans_apart         spans do not overlap
-/

namespace Toolbar

/-! ## Cutting a text at the first character of a kind -/

section Cut

variable {p : Char → Bool} {as bs cs : List Char} {b : Char}

theorem takeWhile_append_cons (h : ∀ a ∈ as, p a = true) (hb : p b = false) :
    (as ++ b :: bs).takeWhile p = as := by
  rw [List.takeWhile_append_of_pos h, List.takeWhile_cons_of_neg (by simp [hb]), List.append_nil]

theorem dropWhile_append_cons (h : ∀ a ∈ as, p a = true) (hb : p b = false) :
    (as ++ b :: bs).dropWhile p = b :: bs := by
  rw [List.dropWhile_append_of_pos h, List.dropWhile_cons_of_neg (by simp [hb])]

/-- A text is cut in one way at the first character of a kind. -/
theorem cut_unique {as' bs' : List Char} {b' : Char}
    (heq : as ++ b :: bs = as' ++ b' :: bs') (h : ∀ a ∈ as, p a = true) (hb : p b = false)
    (h' : ∀ a ∈ as', p a = true) (hb' : p b' = false) : as = as' := by
  rw [← takeWhile_append_cons h hb, heq, takeWhile_append_cons h' hb']

theorem mem_takeWhile {a : Char} (h : a ∈ cs.takeWhile p) : p a = true :=
  List.all_eq_true.mp List.all_takeWhile a h

end Cut

/-! ## Pieces -/

/-- A piece of a text, and where it stands. -/
structure Span (α : Type) where
  start : Nat
  length : Nat
  piece : α

namespace Span

variable {α : Type}

/-- Where a piece ends. -/
def stop (x : Span α) : Nat :=
  x.start + x.length

/-- A position lies in a piece. -/
def Contains (x : Span α) (i : Nat) : Prop :=
  x.start ≤ i ∧ i < x.stop

end Span

section Spans

variable {α : Type} (cut : List Char → Option (α × Nat))

/-- The pieces of a text that begins at `start`, where the first `skip` characters belong to a piece
already found. -/
def spans (start skip : Nat) : List Char → List (Span α)
  | [] => []
  | c :: cs =>
      match skip with
      | k + 1 => spans (start + 1) k cs
      | 0 =>
          match cut (c :: cs) with
          | some (a, n) => ⟨start, n, a⟩ :: spans (start + 1) (n - 1) cs
          | none => spans (start + 1) 0 cs

variable {cut}

/-- A span stands where a piece begins. -/
theorem mem_spans {x : Span α} {cs : List Char} {start skip : Nat}
    (h : x ∈ spans cut start skip cs) :
    ∃ i, x.start = start + i ∧ skip ≤ i ∧ cut (cs.drop i) = some (x.piece, x.length) := by
  induction cs generalizing start skip with
  | nil => cases h
  | cons c cs ih =>
      -- What is found in `cs` stands one further in `c :: cs`.
      have further : ∀ {k}, x ∈ spans cut (start + 1) k cs → skip ≤ k + 1 →
          ∃ i, x.start = start + i ∧ skip ≤ i ∧
            cut ((c :: cs).drop i) = some (x.piece, x.length) := by
        intro k hx hk
        obtain ⟨i, hstart, hskip, hcut⟩ := ih hx
        exact ⟨i + 1, by omega, by omega, hcut⟩
      cases skip with
      | succ k => exact further h (Nat.le_refl _)
      | zero =>
          simp only [spans] at h
          split at h
          next a n hcut =>
            rcases List.mem_cons.mp h with rfl | h
            · exact ⟨0, rfl, Nat.le_refl 0, hcut⟩
            · exact further h (Nat.zero_le _)
          next => exact further h (Nat.zero_le _)

/-- Where a piece can begin, there is one, which begins there or further left. -/
theorem span_at (positive : ∀ cs a n, cut cs = some (a, n) → 0 < n) {cs : List Char}
    {start skip i : Nat} (hskip : skip ≤ i) (hlt : i < cs.length) (hcut : cut (cs.drop i) ≠ none) :
    ∃ x ∈ spans cut start skip cs, x.Contains (start + i) := by
  induction cs generalizing start skip i with
  | nil => exact absurd hlt (Nat.not_lt_zero _)
  | cons c cs ih =>
      have further : ∀ {k j}, i = j + 1 → k ≤ j →
          ∃ x ∈ spans cut (start + 1) k cs, x.Contains (start + i) := by
        rintro k j rfl hk
        have found : ∃ x ∈ spans cut (start + 1) k cs, x.Contains (start + 1 + j) :=
          ih hk (by simpa using hlt) hcut
        rwa [Nat.add_right_comm] at found
      cases skip with
      | succ k => exact further (Nat.sub_add_cancel (by omega)).symm (by omega)
      | zero =>
          simp only [spans]
          split
          next a n hat =>
            have hn := positive _ _ _ hat
            rcases Nat.lt_or_ge i n with hi | hi
            · refine ⟨⟨start, n, a⟩, List.mem_cons_self, ?_, ?_⟩
              · exact Nat.le_add_right _ _
              · exact Nat.add_lt_add_left hi start
            · obtain ⟨x, hx, hin⟩ := further (k := n - 1) (j := i - 1) (by omega) (by omega)
              exact ⟨x, List.mem_cons_of_mem _ hx, hin⟩
          next hat =>
            cases i with
            | zero => exact absurd hat hcut
            | succ j => exact further rfl (Nat.zero_le _)

/-! ## Whole texts -/

/-- A span of a whole text stands where its piece begins. -/
theorem cut_of_mem_spans {x : Span α} {cs : List Char} (h : x ∈ spans cut 0 0 cs) :
    cut (cs.drop x.start) = some (x.piece, x.length) := by
  obtain ⟨i, hstart, -, hcut⟩ := mem_spans h
  rw [hstart, Nat.zero_add]
  exact hcut

/-- Where a piece of a whole text can begin, there is one. -/
theorem span_covers (positive : ∀ cs a n, cut cs = some (a, n) → 0 < n) (nil : cut [] = none)
    {cs : List Char} {i : Nat} (hcut : cut (cs.drop i) ≠ none) :
    ∃ x ∈ spans cut 0 0 cs, x.Contains i := by
  have hlt : i < cs.length := by
    refine Nat.lt_of_not_le fun hle => hcut ?_
    rw [List.drop_eq_nil_of_le hle, nil]
  have found : ∃ x ∈ spans cut 0 0 cs, x.Contains (0 + i) :=
    span_at positive (Nat.zero_le i) hlt hcut
  rwa [Nat.zero_add] at found

/-- Spans do not overlap: one that begins further right begins where the other has ended. -/
theorem spans_apart (positive : ∀ cs a n, cut cs = some (a, n) → 0 < n) {x y : Span α}
    {cs : List Char} {start skip : Nat} (hx : x ∈ spans cut start skip cs)
    (hy : y ∈ spans cut start skip cs) (h : x.start < y.start) : x.stop ≤ y.start := by
  induction cs generalizing start skip with
  | nil => cases hx
  | cons c cs ih =>
      cases skip with
      | succ k => exact ih hx hy
      | zero =>
          simp only [spans] at hx hy
          split at hx
          next a n hat =>
            have hn := positive _ _ _ hat
            simp only [hat] at hy
            rcases List.mem_cons.mp hx with rfl | hx
            · rcases List.mem_cons.mp hy with rfl | hy
              · exact absurd h (Nat.lt_irrefl _)
              · obtain ⟨i, hstart, hskip, -⟩ := mem_spans hy
                simp only [Span.stop]
                omega
            · rcases List.mem_cons.mp hy with rfl | hy
              · obtain ⟨i, hstart, -, -⟩ := mem_spans hx
                simp only at h
                omega
              · exact ih hx hy
          next hat =>
            simp only [hat] at hy
            exact ih hx hy

end Spans

end Toolbar
