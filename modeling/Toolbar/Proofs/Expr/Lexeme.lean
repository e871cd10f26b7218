/-
# `Toolbar.Proofs.Expr.Lexeme` — where the lexemes of an expression stand

The lexemes of a source are its pieces, with the end behind them (`scan_eq_spans`).  A field is read
where a path in braces can be read, and braces open in fields and in quoted texts only
(`kind_of_brace`).
-/
import Toolbar.Expr.Lexeme
import Toolbar.Proofs.Expr.Fields
import Toolbar.Proofs.Template.Token

namespace Toolbar.Expr.Lexeme

open Text

/-! ## Fields -/

/-- A field stands where a path in braces does. -/
theorem fieldLength?_eq_some {cs : List Char} {n : Nat} :
    fieldLength? cs = some n ↔
      ∃ path rest, Token.pathAt? cs = some (path, rest) ∧ n = path.length + 2 := by
  constructor
  · intro h
    cases cs with
    | nil => cases h
    | cons c cs =>
        simp only [fieldLength?] at h
        split at h
        next hcond =>
          cases h
          simp only [Bool.and_eq_true, beq_iff_eq, decide_eq_true_eq, Bool.not_eq_true',
            List.isEmpty_eq_false_iff] at hcond
          obtain ⟨⟨rfl, hne⟩, hlt⟩ := hcond
          have hsplit := List.takeWhile_append_dropWhile (p := fun c => c != '\x7d') (l := cs)
          cases hdrop : cs.dropWhile (· != '\x7d') with
          | nil =>
              rw [hdrop, List.append_nil] at hsplit
              rw [hsplit] at hlt
              exact absurd hlt (Nat.lt_irrefl _)
          | cons d rest =>
              have hd : d = '\x7d' := by
                have hhead := List.head?_dropWhile_not (fun c => c != '\x7d') cs
                rw [hdrop] at hhead
                simpa using hhead
              subst hd
              rw [hdrop] at hsplit
              refine ⟨_, rest, Token.pathAt?_eq_some.mpr ⟨hne, fun hmem => ?_, ?_⟩, rfl⟩
              · simpa using mem_takeWhile hmem
              · rw [List.cons_append, hsplit]
        next => cases h
  · rintro ⟨path, rest, hpath, rfl⟩
    obtain ⟨hne, hmem, rfl⟩ := Token.pathAt?_eq_some.mp hpath
    have hall : ∀ a ∈ path, (a != '\x7d') = true := fun a ha =>
      bne_iff_ne.mpr fun h => hmem (h ▸ ha)
    simp only [fieldLength?, List.cons_append]
    rw [takeWhile_append_cons hall (by decide)]
    simp [hne]

theorem at?_field {cs : List Char} {n : Nat} :
    at? cs = some (.field, n) ↔ fieldLength? cs = some n := by
  unfold at?
  cases fieldLength? cs with
  | some m => simp
  | none =>
      simp only [reduceCtorEq, iff_false]
      intro h
      split at h
      · cases h
      · split at h
        · cases h
        · split at h
          · cases h
          · obtain ⟨m, -, heq⟩ := Option.map_eq_some_iff.mp h
            cases heq

/-- What a field lexeme is read from, and the token that could be read there. -/
theorem field_at {cs : List Char} {n : Nat} (h : at? cs = some (.field, n)) :
    ∃ path rest, Token.pathAt? cs = some (path, rest) ∧ n = path.length + 2 ∧
      Parser.inside (cs.take n) = path := by
  obtain ⟨path, rest, hpath, rfl⟩ := fieldLength?_eq_some.mp (at?_field.mp h)
  refine ⟨path, rest, hpath, rfl, ?_⟩
  obtain ⟨-, -, rfl⟩ := Token.pathAt?_eq_some.mp hpath
  have hsplit : '\x7b' :: path ++ '\x7d' :: rest = ('\x7b' :: path ++ ['\x7d']) ++ rest := by simp
  rw [hsplit, List.take_left' (by simp)]
  simp [Parser.inside]

/-! ## Braces -/

theorem not_brace_of_isDigit {c : Char} (h : isDigit c = true) : c ≠ '\x7b' := by
  rintro rfl
  exact absurd h (by decide)

theorem not_brace_of_isNamePart {c : Char} (h : Token.isNamePart c = true) : c ≠ '\x7b' := by
  rintro rfl
  exact absurd h (by decide)

theorem digits_no_brace (cs : List Char) : '\x7b' ∉ cs.take (digitCount cs) := by
  rw [digitCount, ← List.prefix_iff_eq_take.mp (List.takeWhile_prefix isDigit)]
  exact fun hmem => not_brace_of_isDigit (mem_takeWhile hmem) rfl

theorem fraction_no_brace (cs : List Char) : '\x7b' ∉ cs.take (fractionLength cs) := by
  unfold fractionLength
  split
  next cs =>
    split
    · simp
    · rw [Nat.add_comm, List.take_succ_cons, List.mem_cons]
      exact fun h => h.elim (by decide) (digits_no_brace cs)
  next => simp

theorem exponent_no_brace (cs : List Char) : '\x7b' ∉ cs.take (exponentLength cs) := by
  unfold exponentLength
  split
  next c cs =>
    split
    next hletter =>
      have hc : '\x7b' ≠ c := by
        rintro rfl
        exact absurd hletter (by decide)
      split
      next s ds =>
        split
        next hsign =>
          have hs : '\x7b' ≠ s := by
            rintro rfl
            exact absurd hsign (by decide)
          split
          · simp
          · rw [Nat.add_comm, List.take_succ_cons, List.take_succ_cons]
            simp only [List.mem_cons, not_or]
            exact ⟨hc, hs, digits_no_brace ds⟩
        next =>
          split
          · simp
          · rw [Nat.add_comm, List.take_succ_cons, List.mem_cons, not_or]
            exact ⟨hc, digits_no_brace _⟩
      next => simp
    next => simp
  next => simp

theorem number_no_brace {cs : List Char} {n : Nat} (h : numberLength? cs = some n) :
    '\x7b' ∉ cs.take n := by
  simp only [numberLength?] at h
  split at h
  · cases h
  · cases h
    rw [List.take_add, List.take_add]
    simp only [List.mem_append, not_or]
    exact ⟨⟨digits_no_brace cs, fraction_no_brace _⟩, exponent_no_brace _⟩

theorem operator_no_brace {cs : List Char} {n : Nat} :
    ∀ {os : List (List Char)}, (∀ o ∈ os, '\x7b' ∉ o) → operatorLength? cs os = some n →
      '\x7b' ∉ cs.take n
  | [], _, h => nomatch h
  | o :: os, hos, h => by
      simp only [operatorLength?] at h
      split at h
      next hstarts =>
        cases h
        obtain ⟨rest, rfl⟩ := startsWith_iff.mp hstarts
        rw [List.take_left]
        exact hos o List.mem_cons_self
      next => exact operator_no_brace (fun o ho => hos o (List.mem_cons_of_mem _ ho)) h

theorem name_no_brace {cs : List Char} {n : Nat} (h : nameLength? cs = some n) :
    '\x7b' ∉ cs.take n := by
  cases cs with
  | nil => cases h
  | cons c cs =>
      simp only [nameLength?] at h
      split at h
      next hstart =>
        cases h
        have hpart : Token.isNamePart c = true := by simp [Token.isNamePart, hstart]
        rw [Nat.add_comm, List.take_succ_cons, List.mem_cons, not_or,
          ← List.prefix_iff_eq_take.mp (List.takeWhile_prefix Token.isNamePart)]
        exact ⟨(not_brace_of_isNamePart hpart).symm,
          fun hmem => not_brace_of_isNamePart (mem_takeWhile hmem) rfl⟩
      next => cases h

/-- Braces open in fields and in quoted texts only. -/
theorem kind_of_brace {cs : List Char} {kind : Kind} {n : Nat} (h : at? cs = some (kind, n))
    (hbrace : '\x7b' ∈ cs.take n) : kind = .field ∨ kind = .text := by
  unfold at? at h
  split at h
  · cases h
    exact .inl rfl
  · split at h
    next hnumber =>
      cases h
      exact absurd hbrace (number_no_brace hnumber)
    next =>
      split at h
      · cases h
        exact .inr rfl
      · split at h
        next hop =>
          cases h
          exact absurd hbrace (operator_no_brace (by decide) hop)
        next =>
          obtain ⟨m, hname, heq⟩ := Option.map_eq_some_iff.mp h
          cases heq
          exact absurd hbrace (name_no_brace hname)

/-! ## All lexemes of a source -/

theorem operatorLength?_positive {cs : List Char} {n : Nat} :
    ∀ {os : List (List Char)}, (∀ o ∈ os, 0 < o.length) → operatorLength? cs os = some n → 0 < n
  | [], _, h => nomatch h
  | o :: os, hos, h => by
      simp only [operatorLength?] at h
      split at h
      · cases h
        exact hos o List.mem_cons_self
      · exact operatorLength?_positive (fun o ho => hos o (List.mem_cons_of_mem _ ho)) h

theorem numberLength?_positive {cs : List Char} {n : Nat} (h : numberLength? cs = some n) :
    0 < n := by
  simp only [numberLength?] at h
  split at h
  · cases h
  · cases h
    omega

theorem textLength?_positive {cs : List Char} {n : Nat} (h : textLength? cs = some n) :
    0 < n := by
  cases cs with
  | nil => cases h
  | cons c cs =>
      simp only [textLength?] at h
      split at h
      · obtain ⟨m, -, rfl⟩ := Option.map_eq_some_iff.mp h
        exact Nat.succ_pos m
      · cases h

theorem nameLength?_positive {cs : List Char} {n : Nat} (h : nameLength? cs = some n) :
    0 < n := by
  cases cs with
  | nil => cases h
  | cons c cs =>
      simp only [nameLength?] at h
      split at h
      · cases h
        omega
      · cases h

/-- A lexeme is not empty, and no end. -/
theorem at?_proper {cs : List Char} {kind : Kind} {n : Nat} (h : at? cs = some (kind, n)) :
    0 < n ∧ kind ≠ .stop := by
  unfold at? at h
  split at h
  next hfield =>
    cases h
    obtain ⟨path, -, -, rfl⟩ := fieldLength?_eq_some.mp hfield
    exact ⟨Nat.zero_lt_succ _, Kind.noConfusion⟩
  next =>
    split at h
    next hnumber =>
      cases h
      exact ⟨numberLength?_positive hnumber, Kind.noConfusion⟩
    next =>
      split at h
      next htext =>
        cases h
        exact ⟨textLength?_positive htext, Kind.noConfusion⟩
      next =>
        split at h
        next hop =>
          cases h
          exact ⟨operatorLength?_positive (by decide) hop, Kind.noConfusion⟩
        next =>
          obtain ⟨m, hname, heq⟩ := Option.map_eq_some_iff.mp h
          cases heq
          exact ⟨nameLength?_positive hname, Kind.noConfusion⟩

theorem at?_positive (cs : List Char) (kind : Kind) (n : Nat) (h : at? cs = some (kind, n)) :
    0 < n :=
  (at?_proper h).1

/-- The lexeme of a source that stands at a span. -/
def ofSpan (source : List Char) (x : Span Kind) : Lexeme :=
  ⟨x.piece, (source.drop x.start).take x.length, x.start⟩

/-- The lexemes of the rest of a source are its pieces, and the end. -/
theorem scan_eq_spans (source : List Char) {cs : List Char} {position skip : Nat}
    {ls : List Lexeme} (hcs : source.drop position = cs) (h : scan position skip cs = .ok ls) :
    ls = (spans at? position skip cs).map (ofSpan source) ++ [⟨.stop, [], position + cs.length⟩] := by
  induction cs generalizing position skip ls with
  | nil =>
      simp only [scan] at h
      cases h
      rfl
  | cons c cs ih =>
      have hrest : source.drop (position + 1) = cs := by
        rw [← List.drop_drop, hcs]
        rfl
      have hend : position + 1 + cs.length = position + (c :: cs).length := by
        simp only [List.length_cons]
        omega
      cases skip with
      | succ k =>
          rw [← hend]
          exact ih hrest h
      | zero =>
          simp only [scan] at h
          split at h
          next kind n hat =>
            cases hscan : scan (position + 1) (n - 1) cs with
            | error e =>
                rw [hscan] at h
                cases h
            | ok ls' =>
                rw [hscan] at h
                cases h
                simp only [spans, hat, List.map_cons, ofSpan, hcs]
                rw [ih hrest hscan, hend]
                rfl
          next hat =>
            split at h
            next =>
              simp only [spans, hat]
              rw [← hend]
              exact ih hrest h
            next => cases h

/-- The lexemes of a source are its pieces, and the end. -/
theorem ofSource_eq_spans {source : List Char} {ls : List Lexeme} (h : ofSource source = .ok ls) :
    ls = (spans at? 0 0 source).map (ofSpan source) ++ [⟨.stop, [], source.length⟩] := by
  have hls := scan_eq_spans source (List.drop_zero ..) h
  rwa [Nat.zero_add] at hls

theorem spans_no_stop {source : List Char} :
    ∀ l ∈ (spans at? 0 0 source).map (ofSpan source), l.kind ≠ .stop := by
  intro l hl
  obtain ⟨x, hx, rfl⟩ := List.mem_map.mp hl
  exact (at?_proper (cut_of_mem_spans hx)).2

end Toolbar.Expr.Lexeme
