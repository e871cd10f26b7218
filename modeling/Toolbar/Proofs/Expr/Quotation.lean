/-
# `Toolbar.Proofs.Expr.Quotation` — every text can be written in quotes

`quotation q cs` stands between two marks `q` and has a backslash before each mark and each
backslash of the text `cs`.  Two readers meet it: the one of lexemes looks for the mark that closes
it (`inner_escapedFor`), and the one of expressions takes the backslashes away
(`unescape_escapedFor`).  Both pass a backslash together with the character behind it, so they agree
on every row of backslashes, and a letter such as `n` behind an escaped backslash is only a letter.
-/
import Toolbar.Proofs.Expr.Grammar
import Toolbar.Proofs.Expr.Tiling

namespace Toolbar.Expr

open Toolbar.Expr.Parser

/-- The mark and the backslash with a backslash before them, all else as it stands. -/
def escapedFor (q : Char) (cs : List Char) : List Char :=
  cs.flatMap fun c => if c = q ∨ c = '\\' then ['\\', c] else [c]

/-- A text between two marks. -/
def quotation (q : Char) (cs : List Char) : List Char :=
  q :: escapedFor q cs ++ [q]

variable {q : Char}

theorem escapedFor_cons_marked {c : Char} (h : c = q ∨ c = '\\') (cs : List Char) :
    escapedFor q (c :: cs) = '\\' :: c :: escapedFor q cs := by
  rw [escapedFor, List.flatMap_cons, if_pos h]
  rfl

theorem escapedFor_cons_plain {c : Char} (h : ¬ (c = q ∨ c = '\\')) (cs : List Char) :
    escapedFor q (c :: cs) = c :: escapedFor q cs := by
  rw [escapedFor, List.flatMap_cons, if_neg h]
  rfl

/-- The mark that closes a quotation is the first one without a backslash. -/
theorem inner_escapedFor (hq : q ≠ '\n') (cs : List Char) : Lexeme.Inner q (escapedFor q cs) := by
  induction cs with
  | nil => exact .nil
  | cons c cs ih =>
      by_cases h : c = q ∨ c = '\\'
      · rw [escapedFor_cons_marked h]
        refine .escape ?_ ih
        rcases h with rfl | rfl
        · exact hq
        · decide
      · rw [escapedFor_cons_plain h]
        obtain ⟨no_mark, no_backslash⟩ := not_or.mp h
        exact .plain no_mark no_backslash ih

theorem unescape_cons {c : Char} (h : c ≠ '\\') (cs : List Char) :
    unescape (c :: cs) = c :: unescape cs := by
  rw [unescape]
  rintro d ds ⟨⟩
  exact absurd rfl h

/-- What was escaped is read back; the mark and the backslash stand for themselves. -/
theorem unescape_escapedFor (hq : escaped q = q) (cs : List Char) :
    unescape (escapedFor q cs) = cs := by
  induction cs with
  | nil => rfl
  | cons c cs ih =>
      by_cases h : c = q ∨ c = '\\'
      · have itself : escaped c = c := by
          rcases h with rfl | rfl
          · exact hq
          · decide
        rw [escapedFor_cons_marked h, unescape, ih, itself]
      · rw [escapedFor_cons_plain h, unescape_cons (not_or.mp h).2, ih]

theorem inside_quotation (q : Char) (cs : List Char) :
    inside (quotation q cs) = escapedFor q cs := by
  rw [quotation, inside, List.cons_append, List.drop_succ_cons, List.drop_zero,
    List.dropLast_concat]

/-- A quotation is one lexeme. -/
theorem tiles_quotation (hq : q = '"' ∨ q = '\'') (cs : List Char) :
    Lexeme.Tiles [] 0 (quotation q cs) [⟨.text, quotation q cs, 0⟩] := by
  have line : q ≠ '\n' := by rcases hq with rfl | rfl <;> decide
  have foremost : Lexeme.Foremost .text (quotation q cs) ([] ++ []) := by
    refine ⟨.text hq (inner_escapedFor line cs), fun _ text _ ahead => ?_⟩
    simpa using ahead.length_le
  have tiles : Lexeme.Tiles [] 0 (quotation q cs ++ []) [⟨.text, quotation q cs, 0⟩] :=
    .lexeme foremost .done
  rwa [List.append_nil] at tiles

/-- An operand alone is an expression of every level. -/
theorem Derives.of_primary {ls : List Lexeme} {e : Expr} {n : Nat} (h : Derives .primary ls e n) :
    Derives (.binary 0) ls e n := by
  have factor : Derives (.binary BinaryOp.levels) ls e n := .factor (.unsigned (.bare h))
  have level : ∀ k, k ≤ BinaryOp.levels → Derives (.binary (BinaryOp.levels - k)) ls e n := by
    intro k
    induction k with
    | zero => exact fun _ => factor
    | succ k ih =>
        intro hk
        have lower : BinaryOp.levels - (k + 1) + 1 = BinaryOp.levels - k := by omega
        have above := ih (Nat.le_of_succ_le hk)
        rw [← lower] at above
        exact .operand (by omega) above
  exact level BinaryOp.levels (Nat.le_refl _)

/-- A text in quotes alone is the expression of that text. -/
theorem ofLexemes_text {depth : Nat} (hdepth : 1 ≤ depth) {l last : Lexeme} (hl : l.kind = .text)
    (hlast : last.kind = .stop) : ofLexemes depth [l, last] =
      .ok (.literal (.text (String.ofList (unescape (inside l.text))))) := by
  have readable : Readable [l] := by
    intro l' hl' hnumber
    rw [List.mem_singleton.mp hl', hl] at hnumber
    cases hnumber
  exact ofLexemes_of_derives hlast readable hdepth (Derives.of_primary (.text hl))

/-- **Every text can be written as a literal.**  Between either mark, with a backslash before each
mark and each backslash, a text is one lexeme of its class with the end behind it, and at every
limit that allows an expression at all it is the literal of the text. -/
theorem quotation_read (hq : q = '"' ∨ q = '\'') (s : String) {depth : Nat} (hdepth : 1 ≤ depth) :
    Lexeme.ofSource (quotation q s.toList) = .ok [⟨.text, quotation q s.toList, 0⟩,
        ⟨.stop, [], (quotation q s.toList).length⟩] ∧
      ofSource depth (String.ofList (quotation q s.toList)) = .ok (.literal (.text s)) := by
  have itself : escaped q = q := by rcases hq with rfl | rfl <;> decide
  have lexemes := Lexeme.ofSource_of_tiles (tiles_quotation hq s.toList)
  refine ⟨lexemes, ?_⟩
  calc ofSource depth (String.ofList (quotation q s.toList))
      = ofLexemes depth [⟨.text, quotation q s.toList, 0⟩,
          ⟨.stop, [], (quotation q s.toList).length⟩] := by
        rw [ofSource, String.toList_ofList, lexemes]
        rfl
    _ = .ok (.literal (.text (String.ofList (unescape (inside (quotation q s.toList)))))) :=
        ofLexemes_text hdepth rfl rfl
    _ = .ok (.literal (.text s)) := by
        rw [inside_quotation, unescape_escapedFor itself, String.ofList_toList]

/-- A backslash before a letter, both marks, a brace and the end of a line. -/
theorem tangled_read :
    Lexeme.ofSource "'\\\\n\\'\\\\\\\\t\"\x7b\n'".toList = .ok
        [⟨.text, "'\\\\n\\'\\\\\\\\t\"\x7b\n'".toList, 0⟩, ⟨.stop, [], 15⟩] ∧
      ofSource 1 "'\\\\n\\'\\\\\\\\t\"\x7b\n'" =
        .ok (.literal (.text "\\n'\\\\t\"\x7b\n")) := by
  have written : quotation '\'' "\\n'\\\\t\"\x7b\n".toList =
      "'\\\\n\\'\\\\\\\\t\"\x7b\n'".toList := by decide
  have found := quotation_read (.inr rfl) "\\n'\\\\t\"\x7b\n" (Nat.le_refl 1)
  rw [written, String.ofList_toList] at found
  exact found

end Toolbar.Expr
