/-
# `Toolbar.Proofs.Text.Replace` — replacing a text in a text, from the left

Replacing is defined over the pieces between the occurrences of a text.  Here it is read from the
left: what begins no occurrence is kept (`replaceAll_append`), an occurrence becomes the new text
(`replaceAll_append_self`), and what follows is treated in the same way.  Where only the first
occurrence is replaced, what follows is kept (`replaceFirst_append`).
-/
import Toolbar.Text.Search

namespace Toolbar.Text

variable {old new : List Char}

theorem splitFrom_ne_nil (sep piece : List Char) (skip : Nat) (cs : List Char) :
    splitFrom sep piece skip cs ≠ [] := by
  induction cs generalizing piece skip with
  | nil => exact List.cons_ne_nil _ _
  | cons c cs ih =>
      cases skip with
      | succ k => exact ih piece k
      | zero =>
          rw [splitFrom]
          split
          · exact List.cons_ne_nil _ _
          · exact ih (c :: piece) 0

theorem splitFrom_skip (sep piece : List Char) (skip : Nat) (cs : List Char) :
    splitFrom sep piece skip cs = splitFrom sep piece 0 (cs.drop skip) := by
  induction cs generalizing skip with
  | nil => cases skip <;> rfl
  | cons c cs ih =>
      cases skip with
      | zero => rfl
      | succ k => exact ih k

theorem joinWith_cons {mid p : List Char} {ps : List (List Char)} (h : ps ≠ []) :
    joinWith mid (p :: ps) = p ++ mid ++ joinWith mid ps := by
  obtain ⟨q, qs, rfl⟩ := List.exists_cons_of_ne_nil h
  rfl

/-- The piece that has been begun comes first. -/
theorem joinWith_splitFrom (piece cs : List Char) :
    joinWith new (splitFrom old piece 0 cs) =
      piece.reverse ++ joinWith new (splitFrom old [] 0 cs) := by
  induction cs generalizing piece with
  | nil => simp [splitFrom, joinWith]
  | cons c cs ih =>
      simp only [splitFrom]
      split
      · rw [joinWith_cons (splitFrom_ne_nil _ _ _ _), joinWith_cons (splitFrom_ne_nil _ _ _ _)]
        simp
      · rw [ih (c :: piece), ih [c]]
        simp

theorem replaceAll_of_ne_nil (h : old ≠ []) (cs : List Char) :
    replaceAll old new cs = joinWith new (splitFrom old [] 0 cs) := by
  rw [replaceAll, if_neg (by simpa using h), splitOn]

theorem replaceAll_nil (h : old ≠ []) : replaceAll old new [] = [] := by
  rw [replaceAll_of_ne_nil h]
  rfl

/-- A character that begins no occurrence is kept. -/
theorem replaceAll_cons (h : old ≠ []) {c : Char} {cs : List Char} (hc : ¬ old <+: c :: cs) :
    replaceAll old new (c :: cs) = c :: replaceAll old new cs := by
  have hno : ¬ startsWith old (c :: cs) = true := by
    rw [startsWith_iff]
    rintro ⟨rest, hrest⟩
    exact hc ⟨rest, hrest.symm⟩
  rw [replaceAll_of_ne_nil h, replaceAll_of_ne_nil h, splitFrom, if_neg hno, joinWith_splitFrom]
  rfl

/-- A text in which no occurrence begins is kept. -/
theorem replaceAll_append (h : old ≠ []) {as bs : List Char}
    (hno : ∀ k < as.length, ¬ old <+: (as ++ bs).drop k) :
    replaceAll old new (as ++ bs) = as ++ replaceAll old new bs := by
  induction as with
  | nil => rfl
  | cons a as ih =>
      have hhead : ¬ old <+: a :: (as ++ bs) := hno 0 (Nat.zero_lt_succ _)
      have htail : ∀ k < as.length, ¬ old <+: (as ++ bs).drop k := by
        intro k hk
        exact hno (k + 1) (Nat.succ_lt_succ hk)
      rw [List.cons_append, replaceAll_cons h hhead, ih htail, List.cons_append]

/-- An occurrence is replaced. -/
theorem replaceAll_append_self (h : old ≠ []) (cs : List Char) :
    replaceAll old new (old ++ cs) = new ++ replaceAll old new cs := by
  obtain ⟨c, old, rfl⟩ := List.exists_cons_of_ne_nil h
  have hyes : startsWith (c :: old) (c :: (old ++ cs)) = true := startsWith_iff.mpr ⟨cs, rfl⟩
  rw [replaceAll_of_ne_nil h, replaceAll_of_ne_nil h, List.cons_append, splitFrom, if_pos hyes,
    splitFrom_skip, joinWith_cons (splitFrom_ne_nil _ _ _ _)]
  simp

/-! ## The first occurrence of a character -/

theorem replaceFirst_cons {c d : Char} (h : d ≠ c) (cs : List Char) :
    replaceFirst [c] new (d :: cs) = d :: replaceFirst [c] new cs := by
  rw [replaceFirst, dropPart?, if_neg (by simpa using h.symm)]

theorem replaceFirst_of_not_mem {c : Char} {cs : List Char} (h : c ∉ cs) :
    replaceFirst [c] new cs = cs := by
  induction cs with
  | nil => rfl
  | cons d cs ih =>
      obtain ⟨hd, hcs⟩ := not_or.mp (mt List.mem_cons.mpr h)
      rw [replaceFirst_cons (Ne.symm hd), ih hcs]

theorem replaceFirst_append {c : Char} {as : List Char} (h : c ∉ as) (bs : List Char) :
    replaceFirst [c] new (as ++ c :: bs) = as ++ (new ++ bs) := by
  induction as with
  | nil =>
      rw [List.nil_append, replaceFirst, dropPart?, if_pos (by simp)]
      rfl
  | cons a as ih =>
      obtain ⟨ha, has⟩ := not_or.mp (mt List.mem_cons.mpr h)
      rw [List.cons_append, replaceFirst_cons (Ne.symm ha), ih has, List.cons_append]

end Toolbar.Text
