/-
# `Toolbar.Proofs.Expr.Tiling` — a source is tiled by its lexemes

`Tiles` says that a stretch of a source consists of blanks and of texts of the lexical classes, each
the longest that begins where it stands.  The lexemes of such a stretch are read and reading goes on
behind it (`scan_of_tiles`), and every source is tiled up to its end or up to a character with which
no text and no blank begins (`tiled_or_stuck`).  So no character is lost (`ofSource_tiles`).
-/
import Toolbar.Proofs.Expr.LexicalClass

namespace Toolbar.Expr.Lexeme

open Text

/-! ## Tiling -/

/-- From a position on, with `rest` behind it, a stretch of a source consists of blanks and of these
lexemes, each the longest text that a class admits where it stands. -/
inductive Tiles (rest : List Char) : Nat → List Char → List Lexeme → Prop
  | done {position : Nat} : Tiles rest position [] []
  | blank {position : Nat} {c : Char} {used : List Char} {ls : List Lexeme} : isBlank c = true →
      Tiles rest (position + 1) used ls → Tiles rest position (c :: used) ls
  | lexeme {position : Nat} {kind : Kind} {text used : List Char} {ls : List Lexeme} :
      Foremost kind text (used ++ rest) → Tiles rest (position + text.length) used ls →
      Tiles rest position (text ++ used) (⟨kind, text, position⟩ :: ls)

/-- No lexeme and no blank begins with what follows. -/
def Stuck (rest : List Char) : Prop :=
  ∃ c cs, rest = c :: cs ∧ isBlank c = false ∧
    ∀ (kind : Kind) (text : List Char), kind.Admits text → ¬ text <+: rest

/-- The rest of a lexeme is passed over. -/
theorem scan_skip (text rest : List Char) (position : Nat) :
    scan position text.length (text ++ rest) = scan (position + text.length) 0 rest := by
  induction text generalizing position with
  | nil => rfl
  | cons c cs ih =>
      rw [List.length_cons, List.cons_append, scan, ih, Nat.add_right_comm, Nat.add_assoc]

/-- The lexeme that stands next is read, and reading goes on behind it. -/
theorem scan_foremost {kind : Kind} {text rest : List Char} (h : Foremost kind text rest)
    (position : Nat) : scan position 0 (text ++ rest) =
      (scan (position + text.length) 0 rest).map (⟨kind, text, position⟩ :: ·) := by
  have found := at?_of_foremost h
  obtain ⟨c, cs, rfl, -⟩ := h.1.head
  have taken : (c :: (cs ++ rest)).take (c :: cs).length = c :: cs := List.take_left
  have behind : position + 1 + cs.length = position + (c :: cs).length := by
    rw [List.length_cons, Nat.add_right_comm, Nat.add_assoc]
  rw [List.cons_append] at found ⊢
  rw [scan, found]
  dsimp only
  rw [taken, List.length_cons, Nat.add_sub_cancel, scan_skip, behind]
  rfl

theorem at?_blank {c : Char} (h : isBlank c = true) (cs : List Char) : at? (c :: cs) = none := by
  rw [at?_eq_none_iff]
  rintro kind text admits ⟨rest, heq⟩
  obtain ⟨d, ds, rfl, -⟩ := admits.head
  cases heq
  rw [admits.not_blank] at h
  cases h

theorem scan_of_tiles {rest : List Char} {position : Nat} {used : List Char} {ls : List Lexeme}
    (h : Tiles rest position used ls) :
    scan position 0 (used ++ rest) =
      (scan (position + used.length) 0 rest).map (ls ++ ·) := by
  induction h with
  | @done position =>
      rw [List.nil_append, List.length_nil, Nat.add_zero]
      cases scan position 0 rest <;> rfl
  | @blank position c used ls hblank _ ih =>
      rw [List.cons_append, scan, at?_blank hblank, if_pos hblank, ih, List.length_cons,
        Nat.add_right_comm, Nat.add_assoc]
  | @lexeme position kind text used ls foremost _ ih =>
      rw [List.append_assoc, scan_foremost foremost, ih, List.length_append, Nat.add_assoc]
      cases scan (position + (text.length + used.length)) 0 rest <;> rfl

/-- A source is tiled up to its end, or up to where reading is stuck. -/
theorem tiled_or_stuck (cs : List Char) (position : Nat) :
    ∃ used rest ls, cs = used ++ rest ∧ Tiles rest position used ls ∧ (rest = [] ∨ Stuck rest) := by
  induction h : cs.length using Nat.strongRecOn generalizing cs position with
  | ind n ih =>
    subst h
    match cs with
    | [] => exact ⟨[], [], [], rfl, .done, .inl rfl⟩
    | c :: cs =>
      cases found : at? (c :: cs) with
      | some r =>
          obtain ⟨text, rest, split, -, foremost⟩ := foremost_of_at? found
          have shorter : rest.length < (c :: cs).length := by
            have := foremost.1.length_pos
            rw [split, List.length_append]
            omega
          obtain ⟨used, rest, ls, rfl, tiles, stop⟩ :=
            ih rest.length shorter rest (position + text.length) rfl
          exact ⟨text ++ used, rest, _, by rw [split, List.append_assoc],
            .lexeme foremost tiles, stop⟩
      | none =>
          cases hblank : isBlank c with
          | true =>
              obtain ⟨used, rest, ls, rfl, tiles, stop⟩ :=
                ih cs.length (Nat.lt_succ_self _) cs (position + 1) rfl
              exact ⟨c :: used, rest, ls, rfl, .blank hblank tiles, stop⟩
          | false =>
              have stuck : Stuck (c :: cs) := ⟨c, cs, rfl, hblank, at?_eq_none_iff.mp found⟩
              exact ⟨[], c :: cs, [], rfl, .done, .inr stuck⟩

/-- Where reading is stuck, no stretch that is tiled goes further. -/
theorem Tiles.length_le {rest rest' : List Char} {position : Nat} {used used' : List Char}
    {ls ls' : List Lexeme} (h : Tiles rest position used ls) (h' : Tiles rest' position used' ls')
    (stuck : Stuck rest) (split : used ++ rest = used' ++ rest') : used'.length ≤ used.length := by
  induction h' generalizing used ls with
  | done => exact Nat.zero_le _
  | blank hblank _ ih =>
      cases h with
      | done =>
          obtain ⟨d, ds, rfl, no_blank, -⟩ := stuck
          rw [(List.cons.inj split).1, hblank] at no_blank
          cases no_blank
      | blank _ tiles => exact Nat.succ_le_succ (ih tiles (List.cons.inj split).2)
      | lexeme foremost _ =>
          obtain ⟨d, ds, rfl, -⟩ := foremost.1.head
          have no_blank := foremost.1.not_blank
          rw [(List.cons.inj split).1, hblank] at no_blank
          cases no_blank
  | @lexeme position kind' text' used' ls' foremost' _ ih =>
      cases h with
      | done =>
          obtain ⟨-, -, -, -, no_text⟩ := stuck
          have ahead : text' <+: rest := ⟨used' ++ rest', by rw [← List.append_assoc, ← split]; rfl⟩
          exact absurd ahead (no_text kind' text' foremost'.1)
      | blank hblank _ =>
          obtain ⟨d, ds, rfl, -⟩ := foremost'.1.head
          have no_blank := foremost'.1.not_blank
          rw [← (List.cons.inj split).1, hblank] at no_blank
          cases no_blank
      | @lexeme _ kind text used ls foremost tiles =>
          rw [List.append_assoc, List.append_assoc] at split
          have found := at?_of_foremost foremost
          rw [split, at?_of_foremost foremost'] at found
          obtain ⟨rfl, length⟩ := Prod.mk.inj (Option.some.inj found)
          obtain ⟨rfl, behind⟩ := List.append_inj split length.symm
          rw [List.length_append, List.length_append]
          exact Nat.add_le_add_left (ih tiles behind) _

/-! ### Where the lexemes of a stretch stand -/

/-- The character at a position belongs to a lexeme. -/
def Covers (l : Lexeme) (i : Nat) : Prop :=
  l.position ≤ i ∧ i < l.position + l.text.length

/-- The positions of the lexemes increase. -/
def Ascending (ls : List Lexeme) : Prop :=
  ls.Pairwise fun l l' => l.position < l'.position

section Stretch

variable {rest used : List Char} {position : Nat} {ls : List Lexeme}

theorem Tiles.located (h : Tiles rest position used ls) : ∀ l ∈ ls,
    position ≤ l.position ∧ l.position < position + used.length ∧
      (used.drop (l.position - position)).take l.text.length = l.text ∧ l.kind.Admits l.text := by
  induction h with
  | done => exact nofun
  | @blank position c used ls _ _ ih =>
      intro l hl
      obtain ⟨least, most, text, admits⟩ := ih l hl
      have further : l.position - position = l.position - (position + 1) + 1 := by omega
      refine ⟨by omega, by rw [List.length_cons]; omega, ?_, admits⟩
      rw [further, List.drop_succ_cons]
      exact text
  | @lexeme position kind text used ls foremost _ ih =>
      have positive := foremost.1.length_pos
      intro l hl
      rw [List.length_append]
      rcases List.mem_cons.mp hl with rfl | hl
      · refine ⟨Nat.le_refl _, by dsimp only; omega, ?_, foremost.1⟩
        rw [Nat.sub_self, List.drop_zero, List.take_left]
      · obtain ⟨least, most, slice, admits⟩ := ih l hl
        have further : l.position - position =
            text.length + (l.position - (position + text.length)) := by omega
        refine ⟨by omega, by omega, ?_, admits⟩
        rw [further, List.drop_length_add_append]
        exact slice

theorem Tiles.ascending (h : Tiles rest position used ls) :
    Ascending (ls ++ [⟨.stop, [], position + used.length⟩]) := by
  refine List.pairwise_append.mpr ⟨?_, List.pairwise_singleton _ _, ?_⟩
  · induction h with
    | done => exact .nil
    | blank _ _ ih => exact ih
    | lexeme foremost tiles ih =>
        refine List.pairwise_cons.mpr ⟨fun l hl => ?_, ih⟩
        exact Nat.lt_of_lt_of_le (Nat.lt_add_of_pos_right foremost.1.length_pos)
          (tiles.located l hl).1
  · intro l hl _ hstop
    rw [List.mem_singleton.mp hstop]
    exact (h.located l hl).2.1

/-- What belongs to no lexeme is blank. -/
theorem Tiles.blank_of_not_covered (h : Tiles rest position used ls) {i : Nat} {c : Char}
    (hc : used[i]? = some c) (uncovered : ∀ l ∈ ls, ¬ l.Covers (position + i)) :
    isBlank c = true := by
  induction h generalizing i with
  | done => cases hc
  | @blank position d used ls hblank _ ih =>
      cases i with
      | zero =>
          cases hc
          exact hblank
      | succ i =>
          rw [← Nat.add_assoc, Nat.add_right_comm] at uncovered
          exact ih hc uncovered
  | @lexeme position kind text used ls foremost _ ih =>
      obtain ⟨outside, uncovered⟩ := List.forall_mem_cons.mp uncovered
      have behind : text.length ≤ i := by
        by_cases within : i < text.length
        · exact absurd ⟨Nat.le_add_right _ _, Nat.add_lt_add_left within _⟩ outside
        · exact Nat.le_of_not_lt within
      rw [List.getElem?_append_right behind] at hc
      refine ih hc ?_
      rwa [Nat.add_assoc, Nat.add_sub_cancel' behind]

end Stretch

/-! ## All lexemes of a source -/

/-- What is tiled to its end is read as its lexemes, with the end behind them. -/
theorem ofSource_of_tiles {source : List Char} {ls : List Lexeme} (h : Tiles [] 0 source ls) :
    ofSource source = .ok (ls ++ [⟨.stop, [], source.length⟩]) := by
  have scanned := scan_of_tiles h
  rw [List.append_nil, Nat.zero_add] at scanned
  rw [ofSource, scanned]
  rfl

/-- **Reading loses no character.**  A source is read as lexemes in ascending positions with the end
behind them: each is the text that stands at its position, of its class and the longest of any class
there, and between them are blanks only.  Otherwise the source is refused for the first character
behind the longest stretch that is so tiled: neither a text of any class nor a blank begins
there. -/
theorem ofSource_tiles (source : List Char) :
    (∃ ls, ofSource source = .ok (ls ++ [⟨.stop, [], source.length⟩]) ∧
      Tiles [] 0 source ls ∧
      Ascending (ls ++ [⟨.stop, [], source.length⟩]) ∧
      (∀ l ∈ ls, (source.drop l.position).take l.text.length = l.text ∧ l.kind.Admits l.text) ∧
      ∀ i c, source[i]? = some c → (∀ l ∈ ls, ¬ l.Covers i) → isBlank c = true) ∨
    ∃ used c rest, source = used ++ c :: rest ∧
      ofSource source = .error (.at (.unexpectedCharacter c) used.length) ∧
      (∃ ls, Tiles (c :: rest) 0 used ls) ∧
      isBlank c = false ∧
      (∀ (kind : Kind) (text : List Char), kind.Admits text → ¬ text <+: c :: rest) ∧
      ∀ used' rest' ls, source = used' ++ rest' → Tiles rest' 0 used' ls →
        used'.length ≤ used.length := by
  obtain ⟨used, rest, ls, split, tiles, stop⟩ := tiled_or_stuck source 0
  rcases stop with rfl | stuck
  · rw [List.append_nil] at split
    subst split
    refine .inl ⟨ls, ofSource_of_tiles tiles, tiles, ?_, ?_, ?_⟩
    · have ascending := tiles.ascending
      rwa [Nat.zero_add] at ascending
    · intro l hl
      obtain ⟨-, -, slice, admits⟩ := tiles.located l hl
      exact ⟨slice, admits⟩
    · intro i c hc uncovered
      refine tiles.blank_of_not_covered hc ?_
      rwa [Nat.zero_add]
  · have furthest := fun used' rest' ls' (split' : source = used' ++ rest')
        (tiles' : Tiles rest' 0 used' ls') => tiles.length_le tiles' stuck (split ▸ split')
    obtain ⟨c, cs, rfl, no_blank, no_text⟩ := stuck
    have refused : scan used.length 0 (c :: cs) =
        .error (.at (.unexpectedCharacter c) used.length) := by
      rw [scan, at?_eq_none_iff.mpr no_text]
      simp [no_blank]
    refine .inr ⟨used, c, cs, split, ?_, ⟨ls, tiles⟩, no_blank, no_text, furthest⟩
    rw [ofSource, split, scan_of_tiles tiles, Nat.zero_add, refused]
    rfl

/-- Of four signs of equality the first three are one operator, and the last is none. -/
example : ofSource ['=', '=', '=', '='] = .error (.at (.unexpectedCharacter '=') 3) :=
  rfl

end Toolbar.Expr.Lexeme
