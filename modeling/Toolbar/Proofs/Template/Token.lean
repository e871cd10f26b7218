/-
# `Toolbar.Proofs.Template.Token` — what a token is read from

A token is read from the text that it stands for: the path between its braces, then the suffix if
there is one (`eq_of_at?`).  No brace opens in the name of a method, so behind the path of a token a
brace can only open among its arguments (`brace_in_suffix`).
-/
import Toolbar.Proofs.Text.Spans
import Toolbar.Template.Token

namespace Toolbar

namespace Token

/-! ## Reading one token -/

/-- The path between the braces is all up to the first closing brace, and not empty. -/
theorem pathAt?_eq_some {cs path rest : List Char} :
    pathAt? cs = some (path, rest) ↔
      path ≠ [] ∧ '\x7d' ∉ path ∧ cs = '\x7b' :: path ++ '\x7d' :: rest := by
  constructor
  · intro h
    unfold pathAt? at h
    split at h
    next cs =>
      split at h
      next c path' rest' htake hdrop =>
        cases h
        refine ⟨List.cons_ne_nil _ _, fun hmem => ?_, ?_⟩
        · rw [← htake] at hmem
          simpa using mem_takeWhile hmem
        · rw [← htake, ← hdrop, List.cons_append, List.takeWhile_append_dropWhile]
      next => cases h
    next => cases h
  · rintro ⟨hne, hmem, rfl⟩
    obtain ⟨c, path, rfl⟩ := List.exists_cons_of_ne_nil hne
    have hall : ∀ a ∈ c :: path, (a != '\x7d') = true := fun a ha =>
      bne_iff_ne.mpr fun h => hmem (h ▸ ha)
    simp only [pathAt?, List.cons_append]
    rw [← List.cons_append, takeWhile_append_cons hall (by decide),
      dropWhile_append_cons hall (by decide)]
    rfl

theorem eq_of_argsAt? {cs args rest : List Char} (h : argsAt? cs = some (args, rest)) :
    cs = argsText (some args) ++ rest := by
  unfold argsAt? at h
  split at h
  next cs =>
    dsimp only at h
    split at h
    next rest' hdrop =>
      cases h
      have hsplit := List.takeWhile_append_dropWhile (p := fun c => c != '(' && c != ')') (l := cs)
      rw [hdrop] at hsplit
      simp only [argsText, List.cons_append, List.append_assoc, List.nil_append]
      rw [hsplit]
    next => cases h
  next => cases h

/-- A suffix is read from a point, a name and the arguments. -/
theorem eq_of_suffixAt? {cs name rest : List Char} {args : Option (List Char)}
    (h : suffixAt? cs = some (name, args, rest)) :
    cs = '.' :: name ++ argsText args ++ rest ∧ ∀ c ∈ name, isNamePart c = true := by
  unfold suffixAt? at h
  split at h
  next c cs =>
    split at h
    next hstart =>
      have hname : ∀ c' ∈ c :: cs.takeWhile isNamePart, isNamePart c' = true := by
        intro c' hc'
        rcases List.mem_cons.mp hc' with rfl | hc'
        · simp [isNamePart, hstart]
        · exact mem_takeWhile hc'
      have hcs : '.' :: c :: cs = '.' :: (c :: cs.takeWhile isNamePart) ++ cs.dropWhile isNamePart := by
        simp only [List.cons_append, List.takeWhile_append_dropWhile]
      dsimp only at h
      split at h
      next args rest' hargs =>
        cases h
        exact ⟨by rw [hcs, eq_of_argsAt? hargs, List.append_assoc], hname⟩
      next =>
        cases h
        exact ⟨by rw [hcs, argsText, List.append_nil], hname⟩
    next => cases h
  next => cases h

theorem length_full (t : Token) : t.full.length = t.path.length + 2 + t.suffix.length := by
  simp only [full, List.length_append, List.length_cons]
  omega

/-- Behind the path of a token comes its suffix. -/
theorem drop_full (t : Token) (rest : List Char) (o : Nat) :
    (t.full ++ rest).drop (t.path.length + 2 + o) = (t.suffix ++ rest).drop o := by
  have hpath : ('\x7b' :: t.path ++ ['\x7d']).length = t.path.length + 2 := by simp
  have hfull : t.full ++ rest = ('\x7b' :: t.path ++ ['\x7d']) ++ (t.suffix ++ rest) := by
    simp [full]
  rw [hfull, ← hpath, ← List.drop_drop, List.drop_left]

/-- A token is read from the text that it stands for. -/
theorem eq_of_at? {cs rest : List Char} {t : Token} (h : at? cs = some (t, rest)) :
    cs = t.full ++ rest := by
  unfold at? at h
  split at h
  next => cases h
  next path after hpath =>
    obtain ⟨-, -, rfl⟩ := pathAt?_eq_some.mp hpath
    split at h
    next name args rest' hsuffix =>
      cases h
      rw [(eq_of_suffixAt? hsuffix).1]
      simp [full, suffix]
    next =>
      cases h
      simp [full, suffix]

theorem pathAt?_of_at? {cs rest : List Char} {t : Token} (h : at? cs = some (t, rest)) :
    ∃ after, pathAt? cs = some (t.path, after) := by
  unfold at? at h
  split at h
  next => cases h
  next hpath =>
    split at h
    · cases h
      exact ⟨_, hpath⟩
    · cases h
      exact ⟨_, hpath⟩

/-- The name of a method that is read is made of the characters of names. -/
theorem name_of_at? {cs rest name : List Char} {t : Token} (h : at? cs = some (t, rest))
    (hname : t.method = some name) : ∀ c ∈ name, isNamePart c = true := by
  unfold at? at h
  split at h
  next => cases h
  next =>
    split at h
    next hsuffix =>
      cases h
      cases hname
      exact (eq_of_suffixAt? hsuffix).2
    next =>
      cases h
      cases hname

/-- In arguments with their parentheses, a brace opens before the last character. -/
theorem brace_in_argsText {args : Option (List Char)} {left right : List Char}
    (h : argsText args = left ++ '\x7b' :: right) :
    ∃ as, args = some as ∧ right.length ≤ as.length ∧ right ≠ [] := by
  cases args with
  | none => exact absurd h.symm (by simp [argsText])
  | some as =>
      cases left with
      | nil => exact absurd (List.cons.inj h).1 (by decide)
      | cons c left =>
          have htail : as ++ [')'] = left ++ '\x7b' :: right := (List.cons.inj h).2
          refine ⟨as, rfl, ?_, ?_⟩
          · have hlength := congrArg List.length htail
            simp only [List.length_append, List.length_cons, List.length_nil] at hlength
            omega
          · rintro rfl
            exact absurd (List.append_inj' htail rfl).2 (by decide)

/-- In a suffix that is read, a brace opens among the arguments only. -/
theorem brace_in_suffix {cs rest left right : List Char} {t : Token}
    (h : at? cs = some (t, rest)) (hsuffix : t.suffix = left ++ '\x7b' :: right) :
    ∃ args, t.args = some args ∧ right.length ≤ args.length ∧ right ≠ [] := by
  unfold suffix at hsuffix
  split at hsuffix
  next name hname =>
    have hpart : '\x7b' ∉ '.' :: name := by
      intro hmem
      rcases List.mem_cons.mp hmem with hpoint | hmem
      · exact absurd hpoint (by decide)
      · exact absurd (name_of_at? h hname _ hmem) (by decide)
    rcases List.append_eq_append_iff.mp hsuffix with ⟨l, -, hargs⟩ | ⟨l, hleft, hargs⟩
    · exact brace_in_argsText hargs
    · cases l with
      | nil =>
          have hargs : argsText t.args = [] ++ '\x7b' :: right := hargs.symm
          exact brace_in_argsText hargs
      | cons c l =>
          rw [← (List.cons.inj hargs).1] at hleft
          exact absurd (hleft ▸ List.mem_append_right _ List.mem_cons_self) hpart
  next => exact absurd hsuffix.symm (by simp)

/-! ## All tokens of a text -/

/-- The token that a text begins with, and its length. -/
def cut (cs : List Char) : Option (Token × Nat) :=
  (at? cs).map fun (t, _) => (t, t.full.length)

/-- The tokens of a text, and where they stand. -/
def spans (cs : List Char) : List (Span Token) :=
  Toolbar.spans cut 0 0 cs

theorem cut_positive (cs : List Char) (t : Token) (n : Nat) (h : cut cs = some (t, n)) : 0 < n := by
  obtain ⟨⟨t', rest⟩, -, heq⟩ := Option.map_eq_some_iff.mp h
  cases heq
  exact Nat.zero_lt_succ _

theorem scan_eq_spans (cs : List Char) (start skip : Nat) :
    scan skip cs = (Toolbar.spans cut start skip cs).map (·.piece) := by
  induction cs generalizing start skip with
  | nil => rfl
  | cons c cs ih =>
      cases skip with
      | succ k => exact ih (start + 1) k
      | zero =>
          cases hat : at? (c :: cs) with
          | none => simp only [scan, Toolbar.spans, cut, hat, Option.map_none, ih (start + 1)]
          | some found =>
              obtain ⟨t, rest⟩ := found
              simp only [scan, Toolbar.spans, cut, hat, Option.map_some, List.map_cons,
                ih (start + 1)]

/-- A token stands where it is read. -/
theorem at?_of_mem_spans {cs : List Char} {y : Span Token} (h : y ∈ spans cs) :
    ∃ rest, at? (cs.drop y.start) = some (y.piece, rest) ∧ y.length = y.piece.full.length := by
  obtain ⟨⟨t, rest⟩, hat, heq⟩ := Option.map_eq_some_iff.mp (cut_of_mem_spans h)
  obtain ⟨ht, hn⟩ := Prod.mk.inj heq
  exact ⟨rest, ht ▸ hat, by rw [← hn, ← ht]⟩

/-- The tokens are found where they stand. -/
theorem extract_eq_spans (cs : List Char) : extract cs = (spans cs).map (·.piece) :=
  scan_eq_spans cs 0 0

end Token

end Toolbar
